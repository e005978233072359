import FlashSale.Worker.SystemRely
import FlashSale.Worker.ReconciliationLogic

/-!
# What the calls of the system's programs keep

`AttemptPre` and `PassPre` are what an attempt and the program under the session lock guarantee
before a call, `attempt_call` and `pass_call` say that a call so guarded keeps the invariant and
stays within what everyone else relies on.
-/

namespace FlashSale

open Redis

namespace Shared
variable {env : WorkerEnv} {s s' : Shared} {clean : Prop} {p : OrdersQueueJobPayload} {c : ℕ}

/-! ## Calls -/

theorem call_stores {o : Call} {fault : Fault} {r : Except Failure o.Res}
    (h : s.call fault o = some (r, s')) : s.stores.performWith fault o = some (r, s'.stores) := by
  obtain ⟨⟨r', t⟩, hp, e⟩ := Option.map_eq_some_iff.1 h
  obtain ⟨rfl, rfl⟩ := Prod.mk.inj e
  exact hp

theorem note_local (s : Shared) {o : Call} (h : o.isLocal = true) : s.note o = s := by
  cases o <;> first | rfl | cases h

/-- A call takes effect and is noted, or it fails and nothing happens. -/
theorem call_cases {o : Call} {fault : Fault} {r : Except Failure o.Res}
    (h : s.call fault o = some (r, s')) :
    (∃ r' t, s.stores.perform o = some (r', t) ∧ s' = { s.note o with stores := t } ∧
      (r = r' ∨ r = .error .upstream)) ∨
    (r = .error .upstream ∧ s' = s ∧ o.isRollback = false) := by
  obtain ⟨⟨r', t⟩, hp, e⟩ := Option.map_eq_some_iff.1 h
  obtain ⟨rfl, rfl⟩ := Prod.mk.inj e
  have hlost : ∀ {x : Option (Except Failure o.Res × Stores)},
      x.map (fun q => (.error .upstream, q.2)) = some (r', t) →
        ∃ r'', x = some (r'', t) ∧ (r' = r'' ∨ r' = .error .upstream) := by
    intro x hx
    obtain ⟨⟨r'', t'⟩, rfl, e⟩ := Option.map_eq_some_iff.1 hx
    obtain ⟨rfl, rfl⟩ := Prod.mk.inj e
    exact ⟨r'', rfl, .inr rfl⟩
  unfold Stores.performWith at hp
  cases fault with
  | none => exact .inl ⟨r', t, hp, rfl, .inl rfl⟩
  | after =>
    dsimp only at hp
    split_ifs at hp
    · exact .inl ⟨r', t, hp, rfl, .inl rfl⟩
    · obtain ⟨r'', hx, hr⟩ := hlost hp
      exact .inl ⟨r'', t, hx, rfl, hr⟩
  | before =>
    dsimp only at hp
    split_ifs at hp with hlocal hrb
    · refine .inl ⟨r', t, hp, ?_, .inl rfl⟩
      rw [note_local s hlocal, ite_self]
    · obtain ⟨r'', hx, hr⟩ := hlost hp
      refine .inl ⟨r'', t, hx, ?_, hr⟩
      rw [if_neg (by simp [hrb])]
    · obtain ⟨rfl, rfl⟩ := Prod.mk.inj (Option.some.inj hp)
      have hb : o.isRollback = false := by simpa using hrb
      refine .inr ⟨rfl, ?_, hb⟩
      rw [if_pos ⟨rfl, hb⟩]

theorem note_read (s : Shared) {o : Call} (h : o.isRead = true) : s.note o = s := by
  cases o <;> first | rfl | cases h

theorem call_read {o : Call} (ho : o.isRead = true) {fault : Fault} {r : Except Failure o.Res}
    (h : s.call fault o = some (r, s')) : s' = s := by
  rcases call_cases h with ⟨r', t, hp, rfl, -⟩ | ⟨-, rfl, -⟩
  · obtain ⟨a, ha⟩ := s.stores.perform_read ho
    obtain ⟨-, rfl⟩ := Prod.mk.inj (Option.some.inj (ha.symm.trans hp))
    rw [note_read s ho]
  · rfl

/-- A statement runs and is noted, or it fails and nothing happens. -/
theorem call_sql {stm : Statement} {fault : Fault} {r : Except Failure stm.Res}
    (h : s.call fault (.sql c stm) = some (r, s')) :
    (∃ r' db, s.stores.db.exec c stm = some (r', db) ∧ s' = (s.note (.sql c stm)).setDb db) ∨
      s' = s := by
  rcases call_cases h with ⟨r', t, hp, rfl, -⟩ | ⟨-, rfl, -⟩
  · obtain ⟨⟨r'', db⟩, he, e⟩ := Option.map_eq_some_iff.1 hp
    obtain ⟨rfl, rfl⟩ := Prod.mk.inj e
    refine .inl ⟨r'', db, he, ?_⟩
    obtain ⟨release, hnote, -⟩ := s.note_sql c stm
    rw [hnote]
    rfl
  · exact .inr rfl

/-- A call leaves the transactions of all other clients alone. -/
theorem tx?_call {o : Call} {fault : Fault} {r : Except Failure o.Res}
    (hcall : s.call fault o = some (r, s')) (hc : ∀ stm, o ≠ .sql c stm) :
    s'.stores.db.tx? c = s.stores.db.tx? c := by
  rcases call_cases hcall with ⟨r', t, hp, rfl, -⟩ | ⟨-, hs, -⟩
  swap
  · rw [hs]
  dsimp only
  cases o
  case sql d stm =>
    obtain ⟨⟨r'', db⟩, he, e⟩ := Option.map_eq_some_iff.1 hp
    obtain ⟨rfl, rfl⟩ := Prod.mk.inj e
    refine (Db.exec_frame he).2.1 c ?_
    rintro rfl
    exact hc stm rfl
  case insertSale row =>
    obtain ⟨-, rfl⟩ := Prod.mk.inj (Option.some.inj hp)
    split_ifs
    · rfl
    · rfl
  all_goals
    obtain ⟨-, rfl⟩ := Prod.mk.inj (Option.some.inj hp)
    rfl

theorem nextToken_call {o : Call} {fault : Fault} {r : Except Failure o.Res}
    (hcall : s.call fault o = some (r, s')) : s'.nextToken = s.nextToken := by
  have hnote : (s.note o).nextToken = s.nextToken := by
    unfold note
    split
    · split_ifs <;> rfl
    all_goals rfl
  rcases call_cases hcall with ⟨r', t, -, rfl, -⟩ | ⟨-, hs, -⟩
  · exact hnote
  · rw [hs]

/-! ## Guarantees of an attempt -/

/-- What an attempt at the order `p` guarantees before a call. -/
def AttemptPre (env : WorkerEnv) (c : ℕ) : Call → Shared → Prop
  | .sql d stm, s => d = c ∧ SqlGuard env s c stm
  | .hget _ _, _ => True
  | _, _ => False

theorem AttemptPre.queue {o : Call} {fault : Fault} {r : Except Failure o.Res}
    (hpre : AttemptPre env c o s) (hcall : s.call fault o = some (r, s')) :
    s'.stores.queue = s.stores.queue := by
  cases o <;> try exact hpre.elim
  case hget sid u => rw [call_read rfl hcall]
  case sql d stm =>
    rcases call_sql hcall with ⟨r', db, -, rfl⟩ | hs
    · obtain ⟨release, hnote, -⟩ := s.note_sql d stm
      rw [hnote]
      rfl
    · rw [hs]

/-- A step and those it does not disturb: the invariant holds afterwards, and what the attempts with
other tokens rely on. -/
structure Harmless (env : WorkerEnv) (clean : Prop) (c : ℕ) (s s' : Shared) : Prop where
  inv : s'.SysInv env clean
  attempts : ∀ d p, d ≠ c → d ≠ 0 → d < s.nextToken → GoodPayload env s.confirmed p →
    AttemptRely env d p s s'

theorem Harmless.refl (h : s.SysInv env clean) : Harmless env clean c s s :=
  ⟨h, fun d p _ _ _ _ => .refl env d p s⟩

theorem attempt_call (h : s.SysInv env clean) (hc : c ≠ 0) {o : Call} {fault : Fault}
    {r : Except Failure o.Res} (hpre : AttemptPre env c o s) (hcall : s.call fault o = some (r, s')) :
    Harmless env clean c s s' ∧ PassRely env s s' := by
  cases o <;> try exact hpre.elim
  case hget sid u =>
    rw [call_read rfl hcall]
    exact ⟨.refl h, .refl env s⟩
  case sql d stm =>
    obtain ⟨rfl, hg⟩ := hpre
    rcases call_sql hcall with ⟨r', db, he, rfl⟩ | hs
    swap
    · rw [hs]
      exact ⟨.refl h, .refl env s⟩
    have hclean : clean → ((s.note (.sql d stm)).setDb db).Clean env := fun hcl =>
      (h.2 hcl).sql h.1 hg (fun e => absurd e hc) (fun e => absurd e hc) he
    obtain ⟨release, hnote, ⟨hends, -⟩ | ⟨-, hrel⟩⟩ := s.note_sql d stm
    · exact absurd hends.1 hc
    rw [hnote] at hclean ⊢
    refine ⟨⟨⟨(h.1.history s.released release).sql
      ⟨hg.pre, hg.payload, hg.promote, hg.marker⟩ he, hclean⟩, ?_⟩, ?_⟩
    · exact fun d' p hd _ _ _ => .sql h.1 he hd release
    · exact .of_frame (.exec h.1.repo he (Ne.symm hc)) rfl rfl rfl hrel

/-! ## Guarantees under the session lock -/

/-- The job that may go: it is completed, or the ledger does not name its reservation, or its order
is persisted. It is told by its number, since another job may have taken the slot. -/
structure RemoveGuard (env : WorkerEnv) (s : Shared) (job : Job) (p : OrdersQueueJobPayload) :
    Prop where
  good : GoodJob env s.confirmed job p
  closed : s.stores.db.tx? 0 = none
  slot : ∀ st, s.slot env p.userId = some st → st.job.seq = job.seq → st.job.data = job.data ∧
    (st.state = .completed ∨ (s.ledger env p.userId = some p.reservationId →
      s.stores.db.RowIs p.userId p.reservationId .persisted))

/-- A commit of the resolver that follows a release commits the marker of the released
reservation. -/
def CommitGuard (s : Shared) : Prop :=
  ∀ u id, s.pendingRelease = some (u, id) →
    ∃ w, s.stores.db.pending 0 = some w ∧ w.row.userId = u ∧ w.row.id = id

/-- What the program under the session lock guarantees before a call. -/
def PassPre (env : WorkerEnv) (clean : Prop) : Call → Shared → Prop
  | .seed sid cfg stock, _ => sid = env.SALE_ID ∧ cfg = env.sale ∧ stock = env.sale.totalStock
  | .compensate sid u id, s =>
    sid = env.SALE_ID ∧ (s.ledger env u = some id → CompensateGuard env clean s u id)
  | .compareRestore sid u id t, s => sid = env.SALE_ID ∧ RestoreGuard env clean s u id t
  | .reconcileMembership sid _, _ => sid = env.SALE_ID
  | .reconcileState sid, _ => sid = env.SALE_ID
  | .addJob id name data attempts, s => ∃ p, GoodPayload env s.confirmed p ∧
    id = env.jobId p.userId ∧ name = PERSIST_ORDER_JOB_NAME ∧ data = p.toJs ∧
    attempts = ORDERS_JOB_ATTEMPTS ∧ (s.ledger env p.userId).isSome
  | .removeJob job, s => ∃ p, RemoveGuard env s job p
  | .sql c stm, s => c = 0 ∧ SqlGuard env s 0 stm ∧ (clean → stm = .commit → s.CommitGuard)
  | _, _ => True

/-- A script of the sale whose effect on the keys is known. -/
theorem Harmless.script {o : Call} {x : Sale} {fault : Fault} {r : Except Failure o.Res}
    (hperform : ∃ r', s.stores.perform o = some (r', s.stores.setSale env.SALE_ID x))
    (hstores : (s.note o).stores = s.stores) (hcall : s.call fault o = some (r, s'))
    (h : s.SysInv env clean) (hx : Harmless env clean c s ((s.note o).setSale env x)) :
    Harmless env clean c s s' := by
  obtain ⟨r', hperform⟩ := hperform
  rcases call_cases hcall with ⟨r'', t, hp, rfl, -⟩ | ⟨-, hs, -⟩
  · obtain ⟨-, rfl⟩ := Prod.mk.inj (Option.some.inj (hperform.symm.trans hp))
    unfold Shared.setSale at hx
    rwa [hstores] at hx
  · rw [hs]
    exact .refl h

/-- A script that leaves the entries alone. -/
theorem Harmless.same_entries {x : Sale}
    (hinv : (s.setSale env x).SysInv env clean)
    (hres : x.reservations = (s.sale env).reservations) :
    Harmless env clean c s (s.setSale env x) :=
  ⟨hinv, fun d _ _ _ _ _ => .of_frame (.refl d _) rfl (by rw [sale_setSale]; exact hres) rfl rfl⟩

/-- A turn of the queue. -/
theorem Harmless.turn (h : s.SysInv env clean) {q : JobQueue} {Gone : String → Prop}
    {New : StoredJob → Prop} (ht : s.stores.queue.Turn q none Gone New)
    (hgone : ∀ id, Gone id → s.stores.db.tx? 0 = none)
    (hnew : ∀ st, New st → NewJob env clean s q st) : Harmless env clean c s (s.setQueue q) :=
  ⟨h.turn s.nextToken ht le_rfl (by simp) hgone hnew,
    fun d p _ _ _ _ => .turn s.nextToken ht (by simp) fun st hst => (hnew st hst).lock⟩

/-- A call that only changes the queue. -/
theorem Harmless.queue {o : Call} {q : JobQueue} {fault : Fault} {r : Except Failure o.Res}
    (hperform : ∃ r', s.stores.perform o = some (r', { s.stores with queue := q }))
    (hnote : s.note o = s) (hcall : s.call fault o = some (r, s')) (h : s.SysInv env clean)
    (hx : Harmless env clean c s (s.setQueue q)) : Harmless env clean c s s' := by
  obtain ⟨r', hperform⟩ := hperform
  rcases call_cases hcall with ⟨r'', t, hp, rfl, -⟩ | ⟨-, hs, -⟩
  · obtain ⟨-, rfl⟩ := Prod.mk.inj (Option.some.inj (hperform.symm.trans hp))
    rw [hnote]
    exact hx
  · rw [hs]
    exact .refl h

theorem NewJob.add {p : OrdersQueueJobPayload} (hp : GoodPayload env s.confirmed p)
    (hfree : s.stores.queue.find (env.jobId p.userId) = none)
    (hknown : clean → (s.ledger env p.userId).isSome ∨
      s.stores.db.RowIs p.userId p.reservationId .compensated) :
    NewJob env clean s (s.stores.queue.add (env.jobId p.userId) PERSIST_ORDER_JOB_NAME p.toJs
        ORDERS_JOB_ATTEMPTS)
      ⟨s.stores.queue.newJob (env.jobId p.userId) PERSIST_ORDER_JOB_NAME p.toJs
        ORDERS_JOB_ATTEMPTS, .waiting, none⟩ := by
  refine ⟨?_, rfl, p, ⟨rfl, rfl, rfl, rfl, hp⟩, hknown⟩
  unfold JobQueue.add
  rw [if_neg (by simp [hfree])]
  exact Nat.lt_succ_self _

theorem Harmless.sql (h : s.SysInv env clean) {stm : Statement} (hg : SqlGuard env s 0 stm)
    (hcommit : clean → stm = .commit → s.CommitGuard)
    (hroll : clean → stm = .rollback → s.pendingRelease = none) {r : Except Failure stm.Res}
    {db : Db} (he : s.stores.db.exec 0 stm = some (r, db)) :
    Harmless env clean 0 s ((s.note (.sql 0 stm)).setDb db) := by
  have hclean : clean → ((s.note (.sql 0 stm)).setDb db).Clean env := fun hcl =>
    (h.2 hcl).sql h.1 hg (fun _ e => hcommit hcl e) (fun _ e => hroll hcl e) he
  obtain ⟨release, hnote, -⟩ := s.note_sql 0 stm
  rw [hnote] at hclean ⊢
  exact ⟨⟨(h.1.history s.released release).sql ⟨hg.pre, hg.payload, hg.promote, hg.marker⟩ he,
    hclean⟩, fun d p hd _ _ _ => .sql h.1 he hd release⟩

/-- The state with other values where no guarantee reads it. -/
def aside (s : Shared) (time : RedisTime) (ledgerBucket buyerBucket : String → ℕ)
    (failedScanOffset : ℕ) (sales : List SaleRow) (adds : List OrdersQueueJobPayload) : Shared :=
  { s with
    stores := { s.stores with
      time, ledgerBucket, buyerBucket, failedScanOffset, db := { s.stores.db with sales } }
    adds }

theorem harmless_aside (h : s.SysInv env clean) (time : RedisTime)
    (ledgerBucket buyerBucket : String → ℕ) (offset : ℕ) (sales : List SaleRow)
    {adds : List OrdersQueueJobPayload} (hadds : ∀ q ∈ adds, q ∈ s.adds) :
    Harmless env clean c s (s.aside time ledgerBucket buyerBucket offset sales adds) ∧
      PassRely env s (s.aside time ledgerBucket buyerBucket offset sales adds) := by
  refine ⟨⟨⟨?_, fun hc => ?_⟩, fun d p _ _ _ _ => ?_⟩, ?_⟩
  · exact ⟨h.1.repo.setSales sales, h.1.ids, h.1.unique, h.1.window, h.1.config, h.1.members,
      h.1.entries, fun q hq => h.1.adds q (hadds q hq), h.1.distinct, h.1.jobs, h.1.locks, h.1.rows,
      h.1.writes, h.1.marks, h.1.marker, h.1.promotes⟩
  · have hc := h.2 hc
    exact ⟨hc.known, hc.gone, hc.releasing, hc.slots, hc.persisted, hc.writing, hc.conserved⟩
  · exact .of_frame (.setSales d _ sales) rfl rfl rfl rfl
  · exact .of_frame (.setSales 0 _ sales) rfl rfl rfl rfl

theorem pass_call (h : s.SysInv env clean) {o : Call} {fault : Fault} {r : Except Failure o.Res}
    (hpre : PassPre env clean o s) (hcall : s.call fault o = some (r, s'))
    (hroll : clean → o = .sql 0 .rollback → s.pendingRelease = none) :
    Harmless env clean 0 s s' := by
  cases o <;> try (rw [call_read rfl hcall]; exact .refl h)
  case seed sid cfg stock =>
    obtain ⟨rfl, rfl, rfl⟩ := hpre
    refine .script ⟨_, rfl⟩ rfl hcall h (.same_entries h.seed ?_)
    rcases seed_cases (s.sale env) env.sale env.sale.totalStock with ⟨-, -, e⟩ | ⟨-, -, e⟩
    · rw [e]
    · rw [e]
  case compensate sid u id =>
    obtain ⟨rfl, hg⟩ := hpre
    refine .script ⟨_, rfl⟩ ?_ hcall h ⟨h.compensate hg, fun d p _ hd _ _ => .compensate h.1 hd hg⟩
    rcases compensate_inv h.1 u id with ⟨-, -, e⟩ | ⟨-, -, -, -, e⟩
    · rw [e]
    · rw [e]
  case compareRestore sid u id t =>
    obtain ⟨rfl, hg⟩ := hpre
    exact .script ⟨_, rfl⟩ rfl hcall h
      ⟨h.compareRestore hg, fun d p _ _ _ _ => .compareRestore h.1 hg⟩
  case reconcileMembership sid u =>
    obtain rfl := hpre
    exact .script ⟨_, rfl⟩ rfl hcall h
      (.same_entries (h.reconcileMembership u) (reconcileMembership_keys _ u).1)
  case reconcileState sid =>
    obtain rfl := hpre
    exact .script ⟨_, rfl⟩ rfl hcall h
      (.same_entries h.reconcileState (reconcileState_keys _).1)
  case addJob id name data attempts =>
    obtain ⟨p, hp, rfl, rfl, rfl, rfl, hknown⟩ := hpre
    have ht : s.stores.queue.Turn (s.stores.queue.add (env.jobId p.userId) PERSIST_ORDER_JOB_NAME
        p.toJs ORDERS_JOB_ATTEMPTS) none (fun _ => False) (NewJob env clean s _) :=
      .add h.1.distinct h.1.locked _ _ _ _ fun hfree => .add hp hfree fun _ => .inl hknown
    exact .queue ⟨_, rfl⟩ rfl hcall h (.turn h ht (fun _ hg => hg.elim) fun _ hn => hn)
  case removeJob job =>
    obtain ⟨p, hg⟩ := hpre
    have ht : s.stores.queue.Turn (s.stores.queue.remove job.id).2 none (· = job.id)
      (fun _ => False) := .remove h.1.distinct h.1.locked job.id
    exact .queue ⟨_, rfl⟩ rfl hcall h (.turn h ht (fun _ _ => hg.closed) fun _ hn => hn.elim)
  case pause =>
    have ht : s.stores.queue.Turn { s.stores.queue with paused := true } none (fun _ => False)
      (fun _ => False) := .pause h.1.distinct h.1.locked true
    exact .queue ⟨_, rfl⟩ rfl hcall h (.turn h ht (fun _ hg => hg.elim) fun _ hn => hn.elim)
  case sql d stm =>
    obtain ⟨rfl, hg, hcommit⟩ := hpre
    rcases call_sql hcall with ⟨r', db, he, rfl⟩ | hs
    · exact .sql h hg hcommit (fun hcl e => hroll hcl (by rw [e])) he
    · rw [hs]
      exact .refl h
  case insertSale row =>
    rcases call_cases hcall with ⟨r', t, hp, rfl, -⟩ | ⟨-, hs, -⟩
    · obtain ⟨-, rfl⟩ := Prod.mk.inj (Option.some.inj hp)
      show Harmless env clean 0 s { s with stores := if _ then s.stores else _ }
      split_ifs
      · exact .refl h
      · exact (harmless_aside h s.stores.time s.stores.ledgerBucket s.stores.buyerBucket
          s.stores.failedScanOffset _ fun _ hq => hq).1
    · rw [hs]
      exact .refl h
  case setFailedScanOffset n =>
    rcases call_cases hcall with ⟨r', t, hp, rfl, -⟩ | ⟨-, hs, -⟩
    · obtain ⟨-, rfl⟩ := Prod.mk.inj (Option.some.inj hp)
      exact (harmless_aside h s.stores.time s.stores.ledgerBucket s.stores.buyerBucket n
        s.stores.db.sales fun _ hq => hq).1
    · rw [hs]
      exact .refl h

end Shared
end FlashSale
