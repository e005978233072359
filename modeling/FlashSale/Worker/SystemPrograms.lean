import FlashSale.Worker.SystemCalls
import FlashSale.Worker.SweepLogic

/-!
# The programs of the system meet their guarantees

`attemptLogic` and `passLogic` put the relies and the guarantees together, and the rules for
`persist`, `resolveFailed`, the comparison, the sweep and the boot pass apply to them: an attempt
ends with its order persisted or its reservation marked, and every call of a pass is made where its
guard holds, although what it acts on was read earlier.
-/

namespace FlashSale

open Redis
open Prog (Logic)

namespace Shared

variable {env : WorkerEnv} {s s' : Shared} {clean : Prop} {p : OrdersQueueJobPayload} {c : ℕ}

/-! ## Attempts -/

/-- The logic of an attempt `c` at the order `p`. -/
def attemptLogic (env : WorkerEnv) (clean : Prop) (c : ℕ) (p : OrdersQueueJobPayload) :
    Logic Call Call.Res Failure Shared where
  rely := AttemptRely env c p
  inv s := s.SysInv env clean ∧ GoodPayload env s.confirmed p
  pre := AttemptPre env c
  step o s r s' := ∃ fault, s.call fault o = some (r, s')
  refl := .refl env c p
  trans := .trans

theorem attemptLogic_persist (hc : c ≠ 0) (hcanon : pgUuid p.reservationId = p.reservationId) :
    PersistLogic p (attemptLogic env clean c p) Shared.stores c
      (fun s => s.ledger env p.userId = some p.reservationId) (Marked env c p) where
  rely h := h.db
  inv h := h.1.1.repo
  step h := by
    obtain ⟨fault, h⟩ := h
    exact ⟨fault, call_stores h⟩
  client := hc
  canonical := hcanon
  sqlPre s stm hi hstm hpre hprom := by
    refine ⟨rfl, hpre, fun q hq => ?_, fun q id e => ?_, fun q hq => ?_⟩
    · cases hstm <;> first | cases hq; exact hi.2 | cases hq
    · subst e
      cases hstm
      exact hprom id rfl
    · rcases hq with rfl | ⟨id, rfl⟩
      · cases hstm
      · cases hstm
  hgetPre s _ := trivial
  ledger s v entry hi hv hparse hid := by
    rw [hi.2.sale] at hv
    refine ledger_eq_some.2 ⟨v, hv, ?_⟩
    rw [← (parseReservationEntry_ok hparse).2]
    exact hid
  ledgerRely s s' hk hl hr _ := hr.ledger hk hl
  ledgerHget s s' r hl hstep := by
    obtain ⟨fault, h⟩ := hstep
    rw [call_read rfl h]
    exact hl
  marked s hi hrow _ := ⟨hi.1.1.marks _ _ hrow, .inl hrow⟩
  markedRely s s' hm hr _ := hr.marked hm

/-- What an attempt leaves when it returns. -/
def AttemptDone (env : WorkerEnv) (c : ℕ) (p : OrdersQueueJobPayload) (s : Shared) : Prop :=
  s.stores.db.RowIs p.userId p.reservationId .persisted ∨ Marked env c p s

theorem buildOrdersJobId_good (h : GoodPayload env s.confirmed p) :
    buildOrdersJobId p.saleId p.userId = .ok (env.jobId p.userId) := by
  unfold buildOrdersJobId assertSaleId assertUserId
  rw [if_pos h.valid.saleId, if_pos h.valid.userId, h.sale]
  rfl

/-- **An attempt.** -/
theorem wp_process (hc : c ≠ 0) {job : Job} (hi : s.Inv env)
    (hjob : GoodJob env s.confirmed job p) (htx : s.stores.db.tx? c = none) :
    (process c job).wp (attemptLogic env clean c p)
      (Prog.post (fun _ => AttemptDone env c p) fun _ _ => True) s := by
  have hL : PersistLogic p (attemptLogic env clean c p) Shared.stores c
      (fun s => s.ledger env p.userId = some p.reservationId) (Marked env c p) :=
    attemptLogic_persist hc (hi.canonical hjob.payload)
  unfold process
  refine Prog.wp_throwIf (fun h => absurd hjob.name h) fun _ => ?_
  rw [hjob.data, assertOrdersQueueJobPayload_toJs hjob.payload.valid]
  show Prog.wp _ ((Prog.ofExcept (buildOrdersJobId p.saleId p.userId)).bind _) _ _
  rw [buildOrdersJobId_good hjob.payload]
  refine Prog.wp_throwIf (fun h => absurd hjob.id h) fun _ => ?_
  refine Prog.wp_throwIf (fun h => absurd hjob.attempts h) fun _ => ?_
  refine Prog.wp_bind (Prog.wp_mono (wp_persist hL htx) ?_)
  rintro (e | a) s - ⟨-, hdone⟩
  · trivial
  · have hdone := hdone a rfl
    intro s' hr _
    cases a with
    | persisted => exact .inl (hr.db.rowIs_persisted hdone)
    | idempotent => exact .inl (hr.db.rowIs_persisted hdone)
    | compensated => exact .inr (hr.marked hdone)

/-! ## Under the session lock -/

/-- The logic of the program under the session lock. In a clean run it never rolls back a
transaction that has released a reservation. -/
def passLogic (env : WorkerEnv) (clean : Prop) : Logic Call Call.Res Failure Shared where
  rely := PassRely env
  inv := SysInv env clean
  pre := PassPre env clean
  step o s r s' := (∃ fault, s.call fault o = some (r, s')) ∧
    (clean → o = .sql 0 .rollback → s.pendingRelease = none)
  refl := .refl env
  trans := .trans

theorem passLogic_stores {o : Call} {r : Except Failure o.Res}
    (h : (passLogic env clean).step o s r s') :
    ∃ fault, s.stores.performWith fault o = some (r, s'.stores) := by
  obtain ⟨⟨fault, h⟩, -⟩ := h
  exact ⟨fault, call_stores h⟩

/-- The slots of these jobs hold them, failed. -/
def FailedJobs (jobs : List Job) (s : Shared) : Prop :=
  ∀ job ∈ jobs, ∃ st, s.stores.queue.find job.id = some st ∧ st.job = job ∧ st.state = .failed

theorem FailedJobs.rely {jobs : List Job} (h : FailedJobs jobs s) (hr : PassRely env s s') :
    FailedJobs jobs s' := by
  intro job hjob
  obtain ⟨st, hst, hj, hf⟩ := h job hjob
  exact ⟨st, hr.failed _ st hst hf, hj, hf⟩

/-! ### Resolutions -/

section Resolve

variable (env clean) (job : Job) (jobs : List Job) (p)

/-- What a resolution of the failed job `job` keeps. -/
structure Resolving (s : Shared) : Prop where
  good : GoodJob env s.confirmed job p
  slots : FailedJobs (job :: jobs) s
  release : clean → s.pendingRelease = none ∨ s.pendingRelease = some (p.userId, p.reservationId)

/-- The reservation has left the ledger. -/
def Gone (s : Shared) : Prop :=
  GoodPayload env s.confirmed p ∧ s.ledger env p.userId ≠ some p.reservationId

variable {env clean job jobs p}

theorem Resolving.failedSlot (h : Resolving env clean p job jobs s) :
    FailedSlot env s p.userId p.reservationId := by
  obtain ⟨st, hst, hj, hf⟩ := h.slots job List.mem_cons_self
  refine ⟨st, ?_, hf, ?_⟩
  · unfold slot
    rw [← h.good.id]
    exact hst
  · rw [hj]
    exact h.good.identity

theorem Gone.rely (h : Gone env p s) (hr : PassRely env s s') : Gone env p s' :=
  ⟨h.1.mono hr.confirmed, fun hl => h.2 (hr.fresh _ _ _ h.1.confirmed hl)⟩

/-- A statement changes the database and the pending release. -/
theorem step_sql {stm : Statement} {r : Except Failure stm.Res}
    (h : (passLogic env clean).step (.sql 0 stm) s r s') :
    ∃ release db, s' = Shared.setDb { s with pendingRelease := release } db ∧
      (release = none ∨ release = s.pendingRelease) := by
  obtain ⟨⟨fault, h⟩, -⟩ := h
  rcases call_sql h with ⟨r', db, -, rfl⟩ | rfl
  · obtain ⟨release, hnote, hrel⟩ := s.note_sql 0 stm
    refine ⟨release, db, by rw [hnote], ?_⟩
    rcases hrel with ⟨-, h⟩ | ⟨-, h⟩
    · exact .inl h
    · exact .inr h
  · exact ⟨_, _, rfl, .inr rfl⟩

/-- What a compensation leaves: nothing happened, or the entry of the reservation is gone. -/
theorem step_compensate {u id : String} {r : Except Failure CompensateReply} (hi : s.Inv env)
    (h : (passLogic env clean).step (.compensate env.SALE_ID u id) s r s') :
    s' = s ∧ (r = .error .upstream ∨ s.ledger env u ≠ some id) ∨
    s.ledger env u = some id ∧ s'.ledger env u = none ∧ s'.stores.queue = s.stores.queue ∧
      s'.confirmed = s.confirmed ∧
      (s'.pendingRelease = some (u, id) ∨ s'.pendingRelease = s.pendingRelease) := by
  obtain ⟨⟨fault, h⟩, -⟩ := h
  rcases call_cases h with ⟨r', t, hp, rfl, -⟩ | ⟨hr, hs, -⟩
  swap
  · exact .inl ⟨hs, .inl hr⟩
  obtain ⟨-, rfl⟩ := Prod.mk.inj (Option.some.inj hp)
  rcases compensate_inv hi u id with ⟨hne, hx, hnote⟩ | ⟨hl, hres, -, -, hnote⟩
  · refine .inl ⟨?_, .inr hne⟩
    rw [hnote]
    show s.setSale env (FlashSale.compensate (s.sale env) u id).2 = s
    rw [hx, setSale_self]
  · refine .inr ⟨hl, ?_, ?_⟩
    · show (s.setSale env (FlashSale.compensate (s.sale env) u id).2).ledger env u = none
      rw [ledger_setSale, hres, Hash.hget_hdel_self]
      rfl
    · rw [hnote]
      refine ⟨rfl, rfl, ?_⟩
      dsimp only
      split_ifs
      · exact .inl rfl
      · exact .inr rfl

theorem passLogic_resolve (hcanon : pgUuid p.reservationId = p.reservationId)
    (hsale : p.saleId = env.SALE_ID) :
    ResolveLogic p (passLogic env clean) Shared.stores (Resolving env clean p job jobs)
      (Gone env p) (fun s => clean → s.pendingRelease = none) where
  rely h := h.db
  inv h := h.1.repo
  step := passLogic_stores
  canonical := hcanon
  frameRely s s' h hr _ :=
    ⟨h.good.mono hr.confirmed, h.slots.rely hr, fun hc => by rw [hr.release]; exact h.release hc⟩
  frameSql s s' stm r h hstep := by
    obtain ⟨release, db, rfl, hrel⟩ := step_sql hstep
    refine ⟨h.good, h.slots, fun hc => ?_⟩
    rcases hrel with rfl | rfl
    · exact .inl rfl
    · exact h.release hc
  frameComp s s' r hi h hstep _ := by
    rw [hsale] at hstep
    rcases step_compensate hi.1 hstep with ⟨rfl, -⟩ | ⟨-, -, hq, hconf, hrel⟩
    · exact h
    · refine ⟨by rw [hconf]; exact h.good, ?_, fun hc => ?_⟩
      · intro job hjob
        rw [hq]
        exact h.slots job hjob
      · rcases hrel with e | e
        · exact .inr e
        · rw [e]; exact h.release hc
  goneRely s s' h hr _ := h.rely hr
  goneSql s s' stm r h hstep := by
    obtain ⟨release, db, rfl, -⟩ := step_sql hstep
    exact h
  gone s s' a hi h hstep _ := by
    rw [hsale] at hstep
    rcases step_compensate hi.1 hstep with ⟨rfl, hr | hne⟩ | ⟨-, hnone, -, hconf, -⟩
    · cases hr
    · exact ⟨h.good.payload, hne⟩
    · exact ⟨by rw [hconf]; exact h.good.payload, by rw [hnone]; simp⟩
  marked s hi h hrow := ⟨h.good.payload, hi.1.marks _ _ hrow⟩
  quietRely s s' h hr _ hc := by rw [hr.release]; exact h hc
  quietStart s hi htx hc := by
    -- a release is pending only under its advisory lock
    by_contra hne
    obtain ⟨⟨u, id⟩, he⟩ := Option.ne_none_iff_exists'.1 hne
    obtain ⟨⟨tx, htx', hk⟩, -⟩ := (hi.2 hc).releasing u id he
    obtain rfl := Option.some.inj (htx.symm.trans htx')
    cases hk
  quietSql s s' stm r h hstep hc := by
    obtain ⟨release, db, rfl, rfl | rfl⟩ := step_sql hstep
    · rfl
    · exact h hc
  quietComp s s' a id hi h hq hid hrow hstep _ hc := by
    -- the persisted order of the user is in the ledger, so nothing is released
    rw [hsale] at hstep
    rcases step_compensate hi.1 hstep with ⟨rfl, -⟩ | ⟨hl, -⟩
    · exact hq hc
    · exact absurd (Option.some.inj (((hi.2 hc).persisted _ _ hrow).symm.trans hl)) hid
  sqlPre s stm hi h hstm hpre hgone hcommit := by
    refine ⟨rfl, ⟨hpre, fun q hq => ?_, fun q id e => ?_, fun q hq => ?_⟩, fun hc e => ?_⟩
    · cases hstm <;> first | cases hq; exact h.good.payload | cases hq
    · subst e
      cases hstm
    · rcases hq with rfl | ⟨id, rfl⟩
      · cases hstm
        exact ⟨(hgone (.inl rfl)).2, h.failedSlot⟩
      · cases hstm
        exact ⟨(hgone (.inr ⟨id, rfl⟩)).2, h.failedSlot⟩
    · intro u id hpend
      rcases hcommit e with hq | ⟨w, hw, hrow⟩
      · rw [hq hc] at hpend
        cases hpend
      · rcases h.release hc with hn | hsome
        · rw [hn] at hpend; cases hpend
        · obtain ⟨rfl, rfl⟩ := Prod.mk.inj (Option.some.inj (hsome.symm.trans hpend))
          refine ⟨w, hw, by rw [hrow]; rfl, ?_⟩
          rw [hrow]
          exact hcanon
  compOpen s hi h hk hrow := ⟨hsale, fun _ => ⟨hk, hrow, h.failedSlot, h.release⟩⟩
  compClosed s hi h hg _ := ⟨hsale, fun hl => absurd hl hg.2⟩

end Resolve

/-! ### The outline -/

/-- What others and the calls before the sweep do: the ledger only grows, no marker appears, and a
job with an old number was there. -/
structure PassGrow (env : WorkerEnv) (s s' : Shared) : Prop where
  db : Db.Rely 0 s.stores.db s'.stores.db
  kept : ∀ u v, (s.sale env).reservations.hget u = some v →
    (s'.sale env).reservations.hget u = some v
  confirmed : s.confirmed ⊆ s'.confirmed
  seq : s.stores.queue.nextSeq ≤ s'.stores.queue.nextSeq
  origin : ∀ id st', s'.stores.queue.find id = some st' →
    (∃ st, s.stores.queue.find id = some st ∧ st.Continues st' ∧
      (st.state = .completed → st'.state = .completed)) ∨ s.stores.queue.nextSeq ≤ st'.job.seq

theorem PassRely.grow (h : PassRely env s s') : PassGrow env s s' :=
  ⟨h.db, h.kept, h.confirmed, h.seq, h.origin⟩

theorem PassGrow.ledger (h : PassGrow env s s') {u : String} (hu : (s.ledger env u).isSome) :
    (s'.ledger env u).isSome := by
  unfold Shared.ledger at *
  rw [Option.isSome_map] at *
  obtain ⟨v, hv⟩ := Option.isSome_iff_exists.1 hu
  rw [h.kept u v hv]
  rfl

/-- The markers among the first `n` rows were read, a row that was read for a user with a marker is
that marker, and persisted rows that were read are still there. -/
structure Scanned (n : ℕ) (rows : List DurableOrder) (s : Shared) : Prop where
  marks : ∀ row ∈ s.stores.db.orders.take n, row.status = .compensated → row ∈ rows
  agree : ∀ row ∈ s.stores.db.orders, row.status = .compensated →
    ∀ row' ∈ rows, row'.userId = row.userId → row' = row
  persisted : ∀ row ∈ rows, row.status = .persisted → row ∈ s.stores.db.orders

/-- Every marker was read. -/
structure ScannedAll (rows : List DurableOrder) (s : Shared) : Prop where
  marks : ∀ row ∈ s.stores.db.orders, row.status = .compensated → row ∈ rows
  agree : ∀ row ∈ s.stores.db.orders, row.status = .compensated →
    ∀ row' ∈ rows, row'.userId = row.userId → row' = row
  persisted : ∀ row ∈ rows, row.status = .persisted → row ∈ s.stores.db.orders

/-- The job was loaded; a stored job with its number has its data. -/
structure Looked (env : WorkerEnv) (clean : Prop) (job : Job) (p : OrdersQueueJobPayload)
    (s : Shared) : Prop where
  good : GoodJob env s.confirmed job p
  seq : job.seq < s.stores.queue.nextSeq
  data : ∀ st, s.stores.queue.find job.id = some st → st.job.seq = job.seq →
    st.job.data = job.data
  known : clean → (s.ledger env p.userId).isSome ∨
    s.stores.db.RowIs p.userId p.reservationId .compensated

/-- The assertions between the calls of a pass. -/
def passOutline (env : WorkerEnv) (clean : Prop) : Outline Shared where
  ok s := s.stores.db.tx? 0 = none
  grow := PassGrow env
  scanned := Scanned
  rows := ScannedAll
  looked job s := ∃ p, Looked env clean job p s
  stated job state s := (∃ p, Looked env clean job p s) ∧ (state = .completed →
    ∀ st, s.stores.queue.find job.id = some st → st.job.seq = job.seq → st.state = .completed)
  entry e s := ∃ v, (s.sale env).reservations.hget e.userId = some v ∧
    parseReservationEntry e.userId v = .ok e
  swept jobs s := s.stores.db.tx? 0 = none ∧ (jobs.map (·.id)).Nodup ∧ FailedJobs jobs s
  removable job s := ∃ p, GoodJob env s.confirmed job p ∧ (Gone env p s ∨
    s.stores.db.RowIs p.userId p.reservationId .persisted)
  boot s := s.stores.db.tx? 0 = none

theorem Scanned.grow {n : ℕ} {rows : List DurableOrder} (h : Scanned n rows s)
    (hg : PassGrow env s s') (hi : s'.Inv env) : Scanned n rows s' where
  marks row hrow hst := h.marks row (hg.db.mem_take hi.repo.wf hrow hst) hst
  agree row hrow hst := h.agree row (hg.db.mem_marks hi.repo.wf hrow hst) hst
  persisted row hrow hst := hg.db.mem_persisted hi.repo.wf (h.persisted row hrow hst) hst

theorem ScannedAll.grow {rows : List DurableOrder} (h : ScannedAll rows s)
    (hg : PassGrow env s s') (hi : s'.Inv env) : ScannedAll rows s' where
  marks row hrow hst := h.marks row (hg.db.mem_marks hi.repo.wf hrow hst) hst
  agree row hrow hst := h.agree row (hg.db.mem_marks hi.repo.wf hrow hst) hst
  persisted row hrow hst := hg.db.mem_persisted hi.repo.wf (h.persisted row hrow hst) hst

/-- Every row is of the sale. -/
theorem Inv.ordersPage (hi : s.Inv env) (n k : ℕ) :
    s.stores.ordersPage env.SALE_ID n k = (s.stores.db.orders.drop n).take k := by
  unfold Stores.ordersPage
  rw [List.filter_eq_self.2]
  exact fun row hrow => by simpa using (hi.rows row hrow).1

theorem Scanned.page {n k : ℕ} {rows : List DurableOrder} (h : Scanned n rows s)
    (hi : s.Inv env) : Scanned (n + k) (rows ++ s.stores.ordersPage env.SALE_ID n k) s := by
  have hpage : ∀ row ∈ s.stores.ordersPage env.SALE_ID n k, row ∈ s.stores.db.orders := by
    intro row hrow
    rw [hi.ordersPage] at hrow
    exact List.mem_of_mem_drop (List.mem_of_mem_take hrow)
  refine ⟨fun row hrow hst => ?_, fun row hrow hst row' hrow' hu => ?_, fun row hrow hst => ?_⟩
  · rw [hi.ordersPage]
    rw [List.take_add] at hrow
    rcases List.mem_append.1 hrow with hrow | hrow
    · exact List.mem_append_left _ (h.marks row hrow hst)
    · exact List.mem_append_right _ hrow
  · rcases List.mem_append.1 hrow' with hrow' | hrow'
    · exact h.agree row hrow hst row' hrow' hu
    · exact List.inj_on_of_nodup_map hi.repo.wf.users (hpage row' hrow') hrow hu
  · rcases List.mem_append.1 hrow with hrow | hrow
    · exact h.persisted row hrow hst
    · exact hpage row hrow

theorem Scanned.all {n : ℕ} {rows : List DurableOrder} (h : Scanned n rows s)
    (hn : s.stores.db.orders.length ≤ n) : ScannedAll rows s := by
  refine ⟨fun row hrow hst => h.marks row ?_ hst, h.agree, h.persisted⟩
  rw [List.take_of_length_le hn]
  exact hrow

/-- The map from users to rows knows every marker. -/
theorem ScannedAll.mapOf {rows : List DurableOrder} (h : ScannedAll rows s) {u id : String}
    (hany : (mapOf (·.userId) rows u).any (fun row => row.status = .compensated && row.id = id) =
      false) : ¬ s.stores.db.RowIs u id .compensated := by
  rintro ⟨row, hrow, hid, hst⟩
  have hmem := Db.mem_orders_of_row? hrow
  have hu := Db.row?_userId hrow
  have hread := h.marks row hmem hst
  have hfind : FlashSale.mapOf (·.userId) rows u = some row := by
    unfold FlashSale.mapOf
    have hsome : (rows.reverse.find? fun item => item.userId == u).isSome := by
      rw [List.find?_isSome]
      exact ⟨row, List.mem_reverse.2 hread, by simpa using hu⟩
    obtain ⟨row', hrow'⟩ := Option.isSome_iff_exists.1 hsome
    have hu' : row'.userId = u := by simpa using List.find?_some hrow'
    rw [hrow', h.agree row hmem hst row' (List.mem_reverse.1 (List.mem_of_find?_eq_some hrow'))
      (hu'.trans hu.symm)]
  rw [hfind] at hany
  simp [hid, hst] at hany

theorem Looked.grow {job : Job} (h : Looked env clean job p s) (hg : PassGrow env s s')
    (hi : s'.SysInv env clean) : Looked env clean job p s' where
  good := h.good.mono hg.confirmed
  seq := lt_of_lt_of_le h.seq hg.seq
  data st' hst' hseq := by
    rcases hg.origin _ st' hst' with ⟨st, hst, hc, -⟩ | hnew
    · rw [hc.data]
      exact h.data st hst (hc.seq.symm.trans hseq)
    · rw [hseq] at hnew
      exact absurd h.seq (Nat.not_lt.2 hnew)
  known hc := by
    rcases h.known hc with hl | ⟨row, hrow, hid, hst⟩
    · exact .inl (hg.ledger hl)
    · -- a marker stays, or another order of the user is persisted and in the ledger
      obtain ⟨row', hrow'⟩ := Option.isSome_iff_exists.1
        (hg.db.evolves.grows p.userId (by simp [hrow]))
      rcases hg.db.renamed rfl _ row row' hrow hst hrow' with rfl | ⟨hp, -⟩
      · exact .inr ⟨_, hrow', hid, hst⟩
      · refine .inl ?_
        rw [(hi.2 hc).persisted p.userId row'.id ⟨row', hrow', rfl, hp⟩]
        rfl

theorem looked_of_find (hi : s.SysInv env clean) (hok : s.stores.db.tx? 0 = none) {id : String}
    {st : StoredJob} (hst : s.stores.queue.find id = some st) :
    ∃ p, Looked env clean st.job p s := by
  obtain ⟨hm, hid⟩ := JobQueue.find_some hst
  obtain ⟨hseq, p, hp⟩ := hi.1.jobs st hm
  refine ⟨p, hp, hseq, fun st' hst' _ => ?_, fun hc => ?_⟩
  · rw [hid, hst] at hst'
    rw [Option.some.inj hst']
  · have hslot : s.slot env p.userId = some st := by
      unfold slot
      rw [← hp.id, hid]
      exact hst
    rcases (hi.2 hc).slots p.userId st _ hslot hp.identity with h | h | h
    · exact .inl h
    · exact .inr h
    · obtain ⟨⟨tx, htx, -⟩, -⟩ := (hi.2 hc).releasing _ _ h
      rw [hok] at htx
      cases htx

/-- What an entry of the ledger stands for. -/
theorem Inv.entry (hi : s.Inv env) {u v : String} {e : ReservationEntry}
    (hv : (s.sale env).reservations.hget u = some v) (hp : parseReservationEntry u v = .ok e) :
    ∃ t, e = ⟨u, e.reservationId, some t⟩ ∧ s.Confirmed u e.reservationId t := by
  obtain ⟨id, t, hc, hval⟩ := hi.entries u v hv
  have hid := (hi.ids _ hc).1
  rcases hval with rfl | rfl
  · obtain ⟨t', ht', rfl⟩ := parseReservationEntry_ledgerValue hid hp
    obtain rfl := decimalValue_luaTostring ht'
    exact ⟨t', rfl, hc⟩
  · obtain ⟨t', ht', rfl⟩ := parseReservationEntry_ledgerValue hid hp
    rw [decimalValue_toString] at ht'
    obtain rfl := Option.some.inj ht'
    exact ⟨t, rfl, hc⟩

theorem passLogic_call {o : Call} {r : Except Failure o.Res}
    (h : (passLogic env clean).step o s r s') : ∃ fault, s.call fault o = some (r, s') := h.1

/-- The calls before the sweep only add to the ledger. -/
theorem passGrow_call (hi : s.Inv env) {o : Call} (ho : DiffCall env o) {fault : Fault}
    {r : Except Failure o.Res} (hcall : s.call fault o = some (r, s')) : PassGrow env s s' := by
  have hself := (PassRely.refl env s).grow
  have hturn : ∀ {q : JobQueue} {Gone : String → Prop} {New : StoredJob → Prop},
      s.stores.queue.Turn q none Gone New → (∀ st, New st → s.stores.queue.nextSeq ≤ st.job.seq) →
      PassGrow env s (s.setQueue q) := by
    intro q Gone New ht hnew
    refine ⟨hself.db, hself.kept, hself.confirmed, ht.seq, fun id st' hst' => ?_⟩
    rcases ht.origin id st' hst' with ⟨st, hst, hc, hd, -⟩ | hn
    · exact .inl ⟨st, hst, hc, hd⟩
    · exact .inr (hnew st' hn)
  have hkeys : ∀ {x : Sale}, (∀ u v, (s.sale env).reservations.hget u = some v →
      x.reservations.hget u = some v) → PassGrow env s (s.setSale env x) := by
    intro x hx
    exact ⟨hself.db, by rw [sale_setSale]; exact hx, hself.confirmed, hself.seq, hself.origin⟩
  cases ho with
  | read h =>
    rw [call_read h hcall]
    exact hself
  | compareRestore u id t =>
    rcases call_cases hcall with ⟨r', t', hp, rfl, -⟩ | ⟨-, hs, -⟩
    · obtain ⟨-, rfl⟩ := Prod.mk.inj (Option.some.inj hp)
      refine hkeys (x := (compareRestoreReservation (s.sale env) u id t).2) fun v val hv => ?_
      rcases compareRestoreReservation_cases (s.sale env) u id t with
        ⟨hn, e⟩ | ⟨val', hv', ⟨-, e⟩ | ⟨-, e⟩⟩
      · rw [e]
        unfold Sale.restore
        dsimp only
        rw [Hash.hget_hset_of_ne]
        · exact hv
        · rintro rfl
          rw [hn] at hv
          cases hv
      · rw [e]; exact hv
      · rw [e]; exact hv
    · rw [hs]; exact hself
  | reconcileMembership u =>
    rcases call_cases hcall with ⟨r', t', hp, rfl, -⟩ | ⟨-, hs, -⟩
    · obtain ⟨-, rfl⟩ := Prod.mk.inj (Option.some.inj hp)
      refine hkeys (x := (reconcileMembership (s.sale env) u).2) fun v val hv => ?_
      rw [(reconcileMembership_keys _ u).1]
      exact hv
    · rw [hs]; exact hself
  | reconcileState =>
    rcases call_cases hcall with ⟨r', t', hp, rfl, -⟩ | ⟨-, hs, -⟩
    · obtain ⟨-, rfl⟩ := Prod.mk.inj (Option.some.inj hp)
      refine hkeys (x := (reconcileState (s.sale env)).2) fun v val hv => ?_
      rw [(reconcileState_keys _).1]
      exact hv
    · rw [hs]; exact hself
  | addJob id name data attempts =>
    rcases call_cases hcall with ⟨r', t', hp, rfl, -⟩ | ⟨-, hs, -⟩
    · obtain ⟨-, rfl⟩ := Prod.mk.inj (Option.some.inj hp)
      have ht : s.stores.queue.Turn (s.stores.queue.add id name data attempts) none
          (fun _ => False) (fun st => st.job = s.stores.queue.newJob id name data attempts) :=
        .add hi.distinct hi.locked id name data attempts fun _ => rfl
      refine hturn ht fun st hst => ?_
      rw [hst]
      exact le_rfl
    · rw [hs]; exact hself
  | removeJob job =>
    rcases call_cases hcall with ⟨r', t', hp, rfl, -⟩ | ⟨-, hs, -⟩
    · obtain ⟨-, rfl⟩ := Prod.mk.inj (Option.some.inj hp)
      have ht : s.stores.queue.Turn (s.stores.queue.remove job.id).2 none (· = job.id)
        (fun _ => False) := .remove hi.distinct hi.locked job.id
      exact hturn ht fun _ h => h.elim
    · rw [hs]; exact hself

theorem classify_good {job : Job} {sj : ScannedJob} {state : JobState}
    (hg : GoodJob env s.confirmed job p) (h : classifyQueueEntry job state = .ok sj) :
    sj.payload = p := by
  obtain ⟨-, hp, -⟩ := classifyQueueEntry_ok h
  rw [hg.data, assertOrdersQueueJobPayload_toJs hg.payload.valid] at hp
  exact (Except.ok.inj hp).symm

theorem passLogic_diff : DiffLogic env (passLogic env clean) Shared.stores
    (passOutline env clean) where
  step := passLogic_stores
  growRely h _ := h.grow
  growStep ho hi _ _ hstep _ := by
    obtain ⟨fault, hcall⟩ := passLogic_call hstep
    exact passGrow_call hi.1 ho hcall
  okMono s s' h hg _ := hg.db.tx.trans h
  scannedMono n rows s s' h hg hi := h.grow hg hi.1
  rowsMono rows s s' h hg hi := h.grow hg hi.1
  lookedMono job s s' h hg hi := by
    obtain ⟨p, h⟩ := h
    exact ⟨p, h.grow hg hi⟩
  statedMono job state s s' h hg hi := by
    obtain ⟨⟨p, hl⟩, hst⟩ := h
    refine ⟨⟨p, hl.grow hg hi⟩, fun hd st' hst' hseq => ?_⟩
    rcases hg.origin _ st' hst' with ⟨st, hfind, hc, hdone⟩ | hnew
    · exact hdone (hst hd st hfind (hc.seq.symm.trans hseq))
    · rw [hseq] at hnew
      exact absurd hl.seq (Nat.not_lt.2 hnew)
  entryMono entry s s' h hg _ := by
    obtain ⟨v, hv, hp⟩ := h
    exact ⟨v, hg.kept _ v hv, hp⟩
  ledgerMono u s s' h hg _ := by
    obtain ⟨v, hv⟩ := Option.isSome_iff_exists.1 h
    exact Option.isSome_iff_exists.2 ⟨v, hg.kept u v hv⟩
  scanStart s _ _ := ⟨by simp, by simp, by simp⟩
  scanPage s n rows hi _ h := h.page hi.1
  scanEnd s n rows hi _ h hlen := by
    refine (h.page hi.1 (k := env.WORKER_RECONCILE_SCAN_COUNT)).all ?_
    rw [hi.1.ordersPage, List.length_take, List.length_drop] at hlen
    omega
  look s id job hi hok hjob := by
    obtain ⟨st, hst, rfl⟩ := Option.map_eq_some_iff.1 hjob
    exact looked_of_find hi hok hst
  lookState s job hi _ h := by
    refine ⟨h, fun hd st hst _ => ?_⟩
    unfold JobQueue.getState at hd
    rw [hst] at hd
    exact hd
  ledgerEntry s u v entry hi _ hv hp := by
    have hu := (parseReservationEntry_ok hp).1
    refine ⟨v, ?_, ?_⟩
    · rw [hu]; exact hv
    · rw [hu]; exact hp
  notBuyerOnly s u hi _ := inspectMembership_ne_buyerOnly (hi.1.members u)
  readPre o s ho _ := by
    cases o <;> trivial
  restoreRowPre s rows row hi hok h hrow hst := by
    have hmem := h.persisted row hrow hst
    have hrow? := hi.1.repo.wf.row?_of_mem hmem rfl
    refine ⟨rfl, (hi.1.rows row hmem).2, fun ⟨row', hr', _, hst'⟩ => ?_, hok, fun hc => ?_⟩
    · obtain rfl := Option.some.inj (hrow?.symm.trans hr')
      rw [hst] at hst'
      cases hst'
    · rw [(hi.2 hc).persisted row.userId row.id ⟨row, hrow?, rfl, hst⟩]
      rfl
  restoreJobPre s rows sj hi hok h hl hc hany := by
    obtain ⟨p, hl⟩ := hl
    obtain rfl := classify_good hl.good hc
    have hun := h.mapOf hany
    exact ⟨rfl, hl.good.payload.confirmed, hun, hok, fun hc => (hl.known hc).resolve_right hun⟩
  addPre s entry p jobId hi _ he hp hid := by
    obtain ⟨v, hv, hparse⟩ := he
    obtain ⟨t, he, hconf⟩ := hi.1.entry hv hparse
    obtain ⟨hvalid, rfl⟩ := assertOrdersQueueJobPayload_toJs_ok hp
    refine ⟨_, ⟨hvalid, rfl, ?_⟩, (buildOrdersJobId_ok hid).2, rfl, rfl, rfl, ?_⟩
    · rw [he]
      exact hconf
    · exact Option.isSome_iff_exists.2 ⟨_, ledger_eq_some.2 ⟨v, hv, rfl⟩⟩
  removePre s entry sj hi hok he hst hc hid hdone := by
    obtain ⟨v, hv, hparse⟩ := he
    obtain ⟨⟨p, hl⟩, hst⟩ := hst
    obtain rfl := classify_good hl.good hc
    have hu : sj.payload.userId = entry.userId :=
      WorkerEnv.jobId_inj (hl.good.id.symm.trans (buildOrdersJobId_ok hid).2)
    refine ⟨_, hl.good, hok, fun st hslot hseq => ?_⟩
    unfold slot at hslot
    rw [← hl.good.id] at hslot
    refine ⟨hl.data st hslot hseq, ?_⟩
    by_cases hr : sj.payload.reservationId = entry.reservationId
    · exact .inl (hst (hdone hr) st hslot hseq)
    · refine .inr fun hled => absurd ?_ hr
      rw [hu] at hled
      obtain ⟨v', hv', hident⟩ := ledger_eq_some.1 hled
      obtain rfl := Option.some.inj (hv.symm.trans hv')
      rw [← hident, (parseReservationEntry_ok hparse).2]
  membershipPre s u _ _ := rfl
  statePre s rows _ _ _ _ := rfl

/-- A call that touches no job. -/
theorem find_call {o : Call} (ho : o.isRead = true ∨ ∃ n, o = .setFailedScanOffset n)
    {fault : Fault} {r : Except Failure o.Res} (hcall : s.call fault o = some (r, s')) :
    s'.stores.queue = s.stores.queue ∧ s'.stores.db = s.stores.db := by
  rcases ho with ho | ⟨n, rfl⟩
  · rw [call_read ho hcall]
    exact ⟨rfl, rfl⟩
  · rcases call_cases hcall with ⟨r', t, hp, rfl, -⟩ | ⟨-, hs, -⟩
    · obtain ⟨-, rfl⟩ := Prod.mk.inj (Option.some.inj hp)
      exact ⟨rfl, rfl⟩
    · rw [hs]
      exact ⟨rfl, rfl⟩

theorem passLogic_sweep : SweepLogic env (passLogic env clean) Shared.stores
    (passOutline env clean) where
  toDiffLogic := passLogic_diff
  distinct s hi := hi.1.distinct
  failedKept s s' id st hr _ hst hf := hr.failed id st hst hf
  sweptNil s _ hok := ⟨hok, List.nodup_nil, fun job h => by cases h⟩
  sweptOk s jobs h := h.1
  sweptTail s job jobs h := by
    obtain ⟨hok, hn, hf⟩ := h
    rw [List.map_cons, List.nodup_cons] at hn
    exact ⟨hok, hn.2, fun j hj => hf j (List.mem_cons_of_mem _ hj)⟩
  sweptRely jobs s s' h hr _ := ⟨hr.db.tx.trans h.1, h.2.1, h.2.2.rely hr⟩
  sweptRead jobs o s r s' ho _ h hstep _ := by
    obtain ⟨fault, hcall⟩ := passLogic_call hstep
    obtain ⟨hq, hdb⟩ := find_call ho hcall
    refine ⟨by rw [hdb]; exact h.1, h.2.1, fun job hj => ?_⟩
    rw [hq]
    exact h.2.2 job hj
  sweptLook s jobs st hi h hf hfind hne := by
    refine ⟨h.1, ?_, fun job hj => ?_⟩
    · rw [List.map_append, List.nodup_append]
      refine ⟨h.2.1, List.nodup_singleton _, fun a ha b hb => ?_⟩
      obtain ⟨job, hj, rfl⟩ := List.mem_map.1 ha
      rw [List.map_singleton, List.mem_singleton] at hb
      rw [hb]
      exact hne job hj
    · rcases List.mem_append.1 hj with hj | hj
      · exact h.2.2 job hj
      · rw [List.mem_singleton.1 hj]
        exact ⟨st, hfind, rfl, hf⟩
  offsetPre s n _ := trivial
  resolve s job jobs sj hi h hc := by
    obtain ⟨hok, hn, hf⟩ := h
    obtain ⟨st, hst, hj, -⟩ := hf job List.mem_cons_self
    obtain ⟨-, p, hp⟩ := hi.1.jobs st (JobQueue.find_some hst).1
    rw [hj] at hp
    obtain rfl := classify_good hp hc
    have hres : Resolving env clean sj.payload job jobs s := by
      refine ⟨hp, hf, fun hcl => .inl ?_⟩
      by_contra hne
      obtain ⟨⟨u, id⟩, he⟩ := Option.ne_none_iff_exists'.1 hne
      obtain ⟨⟨tx, htx, -⟩, -⟩ := (hi.2 hcl).releasing u id he
      rw [hok] at htx
      cases htx
    refine Prog.wp_mono (wp_resolveFailed (passLogic_resolve (hi.1.canonical hp.payload)
      hp.payload.sale) hres hok) ?_
    rintro (e | a) s' - hpost
    · exact ⟨hpost.2, hn, hpost.1.slots⟩
    · obtain ⟨hframe, htx, hdone⟩ := hpost
      refine ⟨⟨htx, hn, hframe.slots⟩, _, hframe.good, ?_⟩
      cases a with
      | persisted => exact .inr hdone
      | compensated => exact .inl hdone
      | compensationNoop => exact .inl hdone
  removableRely job s s' h hr _ := by
    obtain ⟨p, hp, hg | hrow⟩ := h
    · exact ⟨p, hp.mono hr.confirmed, .inl (hg.rely hr)⟩
    · exact ⟨p, hp.mono hr.confirmed, .inr (hr.db.rowIs_persisted hrow)⟩
  sweepRemove s job jobs hi h hrem := by
    obtain ⟨hok, hn, hf⟩ := h
    obtain ⟨p, hp, hgone⟩ := hrem
    constructor
    · refine ⟨p, hp, hok, fun st hslot _ => ?_⟩
      obtain ⟨st', hst', hj, -⟩ := hf job List.mem_cons_self
      unfold slot at hslot
      rw [← hp.id, hst'] at hslot
      obtain rfl := Option.some.inj hslot
      refine ⟨by rw [hj], .inr fun hl => ?_⟩
      rcases hgone with hg | hrow
      · exact absurd hl hg.2
      · exact hrow
    · intro r s' hstep hi'
      obtain ⟨fault, hcall⟩ := passLogic_call hstep
      rw [List.map_cons, List.nodup_cons] at hn
      refine ⟨(tx?_call hcall (by simp)).trans hok, hn.2, fun j hj => ?_⟩
      obtain ⟨st, hst, hjob, hfailed⟩ := hf j (List.mem_cons_of_mem _ hj)
      refine ⟨st, ?_, hjob, hfailed⟩
      rcases call_cases hcall with ⟨r', t, hp', rfl, -⟩ | ⟨-, hs, -⟩
      · obtain ⟨-, rfl⟩ := Prod.mk.inj (Option.some.inj hp')
        have ht : s.stores.queue.Turn (s.stores.queue.remove job.id).2 none (· = job.id)
          (fun _ => False) := .remove hi.1.distinct hi.1.locked job.id
        refine ht.failed _ st hst hfailed fun e => hn.1 ?_
        rw [← e]
        exact List.mem_map_of_mem hj
      · rw [hs]
        exact hst

theorem passLogic_boot : BootLogic env (passLogic env clean) Shared.stores
    (passOutline env clean) where
  toSweepLogic := passLogic_sweep
  bootKept s s' h hr _ := hr.db.tx.trans h
  bootPre o s ho _ _ := by
    cases ho with
    | read h => cases o <;> trivial
    | pause => trivial
    | insertSale => trivial
    | seed => exact ⟨rfl, rfl, rfl⟩
  bootStep o s r s' ho _ h hstep _ := by
    obtain ⟨fault, hcall⟩ := passLogic_call hstep
    refine (tx?_call hcall ?_).trans h
    rintro stm rfl
    cases ho with
    | read h => cases h
  bootReady s _ h _ := h
  okBoot s h := h

end Shared
end FlashSale
