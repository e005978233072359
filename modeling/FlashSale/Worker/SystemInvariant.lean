import FlashSale.Worker.RepositoryLogic
import FlashSale.Redis.Identity
import FlashSale.Worker.System

/-!
# The invariant of the order pipeline

`Shared.Inv` holds over every run. Every identity in the stores stems from a confirmed purchase; a
reservation with a committed or pending marker is not in the ledger, and its failed job is still in
its slot while the marker is pending; a pending promotion has the advisory lock and the ledger on
its side.

`Shared.Clean` holds as long as no transaction of `resolveFailed` ends without a commit after it
released a reservation, and no add of the API lands late. Then a released reservation leaves a row
behind, every persisted row is in the ledger, every job belongs to a user in the ledger or to a
marked reservation, and the stock is exact.
-/

namespace FlashSale

open Redis

/-! ## Jobs -/

/-- The reservation id in the payload of a job. -/
def Job.identity (job : Job) : Option String :=
  (assertOrdersQueueJobPayload job.data).toOption.map (·.reservationId)

section Provenance

variable (env : WorkerEnv) (confirmed : List Confirmation)

/-- The payload of a confirmed purchase. -/
structure GoodPayload (p : OrdersQueueJobPayload) : Prop where
  valid : p.Valid
  sale : p.saleId = env.SALE_ID
  confirmed : ⟨p.userId, p.reservationId, p.reservedAtMs⟩ ∈ confirmed

/-- The job of such a payload. -/
structure GoodJob (job : Job) (p : OrdersQueueJobPayload) : Prop where
  name : job.name = PERSIST_ORDER_JOB_NAME
  data : job.data = p.toJs
  attempts : job.attempts = some ORDERS_JOB_ATTEMPTS
  id : job.id = env.jobId p.userId
  payload : GoodPayload env confirmed p

/-- The row of a confirmed purchase. -/
def GoodRow (row : DurableOrder) : Prop :=
  row.saleId = env.SALE_ID ∧ ⟨row.userId, row.id, row.createdAtMs⟩ ∈ confirmed

variable {env confirmed} {confirmed' : List Confirmation} {job : Job} {p : OrdersQueueJobPayload}

theorem GoodPayload.mono (h : GoodPayload env confirmed p) (hc : confirmed ⊆ confirmed') :
    GoodPayload env confirmed' p := ⟨h.valid, h.sale, hc h.confirmed⟩

theorem GoodJob.mono (h : GoodJob env confirmed job p) (hc : confirmed ⊆ confirmed') :
    GoodJob env confirmed' job p := ⟨h.name, h.data, h.attempts, h.id, h.payload.mono hc⟩

theorem GoodRow.mono {row : DurableOrder} (h : GoodRow env confirmed row)
    (hc : confirmed ⊆ confirmed') : GoodRow env confirmed' row := ⟨h.1, hc h.2⟩

theorem GoodJob.identity (h : GoodJob env confirmed job p) :
    job.identity = some p.reservationId := by
  unfold Job.identity
  rw [h.data, assertOrdersQueueJobPayload_toJs h.payload.valid]
  rfl

theorem GoodJob.continues {st st' : StoredJob} (h : GoodJob env confirmed st.job p)
    (hc : st.Continues st') : GoodJob env confirmed st'.job p :=
  ⟨hc.name.trans h.name, hc.data.trans h.data, hc.attempts.trans h.attempts, hc.id.trans h.id,
    h.payload⟩

end Provenance

namespace Shared

variable {env : WorkerEnv} {s s' : Shared}

/-- A purchase of `id` by `u` was confirmed at `t`. -/
def Confirmed (s : Shared) (u id : String) (t : ℕ) : Prop := ⟨u, id, t⟩ ∈ s.confirmed


/-- The slot of a user holds the failed job of a reservation. -/
def FailedSlot (env : WorkerEnv) (s : Shared) (u id : String) : Prop :=
  ∃ st, s.slot env u = some st ∧ st.state = .failed ∧ st.job.identity = some id

/-- What holds over every run; see the head of the file. -/
structure Inv (env : WorkerEnv) (s : Shared) : Prop where
  repo : s.stores.db.RepoInv
  ids : ∀ c ∈ s.confirmed, isUuid c.reservationId ∧ pgUuid c.reservationId = c.reservationId
  unique : ∀ c ∈ s.confirmed, ∀ d ∈ s.confirmed, c.reservationId = d.reservationId → c = d
  window : ∀ c ∈ s.confirmed, env.sale.startsAtMs ≤ c.reservedAtMs ∧
    (c.reservedAtMs : ℤ) < env.sale.endsAtMs
  config : ∀ cfg, (s.sale env).config = some cfg → cfg = env.sale
  members : ∀ u, (s.sale env).buyers.sismember u = (s.sale env).reservations.hexists u
  entries : ∀ u v, (s.sale env).reservations.hget u = some v → ∃ id t, s.Confirmed u id t ∧
    (v = ledgerValue id (Text.luaTostring t) ∨ v = ledgerValue id (toString t))
  adds : ∀ p ∈ s.adds, p.saleId = env.SALE_ID ∧ s.Confirmed p.userId p.reservationId p.reservedAtMs
  distinct : s.stores.queue.Distinct
  jobs : ∀ st ∈ s.stores.queue.jobs, st.job.seq < s.stores.queue.nextSeq ∧
    ∃ p, GoodJob env s.confirmed st.job p
  locks : ∀ st ∈ s.stores.queue.jobs, ∀ c, st.lock = some c → st.state = .active ∧ c < s.nextToken
  rows : ∀ row ∈ s.stores.db.orders, GoodRow env s.confirmed row
  writes : ∀ c w, s.stores.db.pending c = some w → GoodRow env s.confirmed w.row
  marks : ∀ u id, s.stores.db.RowIs u id .compensated → s.ledger env u ≠ some id
  marker : ∀ w, s.stores.db.pending 0 = some w →
    s.ledger env w.row.userId ≠ some w.row.id ∧ FailedSlot env s w.row.userId w.row.id
  promotes : ∀ c row, c ≠ 0 → s.stores.db.pending c = some (.update row) →
    s.ledger env row.userId = some row.id

/-- What holds over every clean run; see the head of the file. -/
structure Clean (env : WorkerEnv) (s : Shared) : Prop where
  known : ∀ c ∈ s.confirmed, (c.userId, c.reservationId) ∉ s.released →
    s.ledger env c.userId = some c.reservationId
  gone : ∀ u id, (u, id) ∈ s.released → (∃ t, s.Confirmed u id t) ∧ s.ledger env u ≠ some id ∧
    ((s.stores.db.row? u).isSome ∨ s.pendingRelease = some (u, id))
  releasing : ∀ u id, s.pendingRelease = some (u, id) →
    s.stores.db.Holds 0 id ∧ FailedSlot env s u id
  slots : ∀ u st id, s.slot env u = some st → st.job.identity = some id →
    (s.ledger env u).isSome ∨ s.stores.db.RowIs u id .compensated ∨ s.pendingRelease = some (u, id)
  persisted : ∀ u id, s.stores.db.RowIs u id .persisted → s.ledger env u = some id
  writing : ∀ c w, c ≠ 0 → s.stores.db.pending c = some w →
    s.ledger env w.row.userId = some w.row.id
  conserved : Conserved (s.sale env) 0

/-- The invariant of runs that are clean, if `clean` says so. -/
def SysInv (env : WorkerEnv) (clean : Prop) (s : Shared) : Prop :=
  s.Inv env ∧ (clean → s.Clean env)

end Shared

/-! ## Statements -/

/-- The payload a statement writes. -/
def Statement.payload? : Statement → Option OrdersQueueJobPayload
  | .insertPersisted p | .promoteCompensated p _ | .insertMarker p | .updateMarker p _ => some p
  | _ => none

namespace Shared
variable {env : WorkerEnv} {s s' : Shared} {p : OrdersQueueJobPayload}

theorem Inv.locked (h : s.Inv env) : s.stores.queue.Locked := fun _ st c hst hc =>
  (h.locks st (JobQueue.find_some hst).1 c hc).1

theorem Inv.canonical (h : s.Inv env) (hp : GoodPayload env s.confirmed p) :
    pgUuid p.reservationId = p.reservationId := (h.ids _ hp.confirmed).2

theorem Inv.goodRow (h : s.Inv env) (hp : GoodPayload env s.confirmed p) (status : DurableOrderStatus) :
    GoodRow env s.confirmed (p.toRow status) := by
  refine ⟨hp.sale, ?_⟩
  show (⟨p.userId, pgUuid p.reservationId, p.reservedAtMs⟩ : Confirmation) ∈ s.confirmed
  rw [h.canonical hp]
  exact hp.confirmed

/-- What a client guarantees before a statement. -/
structure SqlGuard (env : WorkerEnv) (s : Shared) (c : ℕ) (stm : Statement) : Prop where
  pre : s.stores.db.SqlPre c stm
  payload : ∀ p, stm.payload? = some p → GoodPayload env s.confirmed p
  promote : ∀ p id, stm = .promoteCompensated p id → s.ledger env p.userId = some p.reservationId
  marker : ∀ p, (stm = .insertMarker p ∨ ∃ id, stm = .updateMarker p id) →
    s.ledger env p.userId ≠ some p.reservationId ∧ FailedSlot env s p.userId p.reservationId

/-- The shared state after a statement, before the history. -/
def setDb (s : Shared) (db : Db) : Shared := { s with stores := { s.stores with db } }

theorem Inv.sql (h : s.Inv env) {c : ℕ} {stm : Statement} {r : Except Failure stm.Res} {db : Db}
    (hg : SqlGuard env s c stm) (he : s.stores.db.exec c stm = some (r, db)) :
    (s.setDb db).Inv env := by
  obtain ⟨-, htxs, -⟩ := Db.exec_frame he
  have hwrites : ∀ d w, db.pending d = some w → GoodRow env s.confirmed w.row := by
    intro d w hw
    by_cases hd : d = c
    · subst hd
      rcases Db.pending_exec he hw with ⟨hold, -⟩ | ⟨hnew, -⟩
      · exact h.writes d w hold
      · cases hnew with
        | insertPersisted p _ => exact h.goodRow (hg.payload p rfl) _
        | insertMarker p => exact h.goodRow (hg.payload p rfl) _
        | promote p old _ => exact h.goodRow (hg.payload p rfl) _
        | updateMarker p old _ => exact h.goodRow (hg.payload p rfl) _
    · rw [Db.pending_congr (htxs d hd)] at hw
      exact h.writes d w hw
  have hmarker : ∀ p, (stm = .insertMarker p ∨ ∃ id, stm = .updateMarker p id) →
      stm.payload? = some p → s.ledger env p.userId ≠ some (p.toRow .compensated).id ∧
        FailedSlot env s p.userId (p.toRow .compensated).id := by
    intro p hm hp
    have hid : (p.toRow .compensated).id = p.reservationId := h.canonical (hg.payload p hp)
    rw [hid]
    exact hg.marker p hm
  exact
    { repo := h.repo.exec hg.pre he
      ids := h.ids
      unique := h.unique
      window := h.window
      config := h.config
      members := h.members
      entries := h.entries
      adds := h.adds
      distinct := h.distinct
      jobs := h.jobs
      locks := h.locks
      rows := fun row hrow => by
        rcases Db.mem_orders_exec he hrow with hold | ⟨w, hw, rfl⟩
        · exact h.rows row hold
        · exact h.writes c w hw
      writes := hwrites
      marks := fun u id hrow => by
        rcases h.repo.wf.row?_exec he u with e | ⟨-, w, hw, rfl, hrow'⟩
        · exact h.marks u id ((Db.rowIs_congr e).1 hrow)
        · -- the new row is a marker, so the commit was the resolver's
          obtain ⟨row, hr, rfl, hst⟩ := hrow
          obtain rfl := Option.some.inj (hrow'.symm.trans hr)
          by_cases hc : c = 0
          · subst hc
            exact (h.marker w hw).1
          · rw [h.repo.persists c w hc hw] at hst
            cases hst
      marker := fun w hw => by
        by_cases hc : 0 = c
        · subst hc
          rcases Db.pending_exec he hw with ⟨hold, -⟩ | ⟨hnew, -⟩
          · exact h.marker w hold
          · cases hnew with
            | insertPersisted p _ => exact absurd rfl hg.pre.1
            | promote p old _ => exact absurd rfl hg.pre.1
            | insertMarker p => exact hmarker p (.inl rfl) rfl
            | updateMarker p old _ => exact hmarker p (.inr ⟨_, rfl⟩) rfl
        · exact h.marker w ((Db.pending_congr (htxs 0 hc)).symm.trans hw)
      promotes := fun d row hd hw => by
        by_cases hdc : d = c
        · subst hdc
          rcases Db.pending_exec he hw with ⟨hold, -⟩ | ⟨hnew, -⟩
          · exact h.promotes d row hd hold
          · cases hnew with
            | promote p old _ =>
              have hid : (p.toRow .persisted).id = p.reservationId :=
                h.canonical (hg.payload p rfl)
              rw [hid]
              exact hg.promote p _ rfl
            | updateMarker p old _ => exact absurd hg.pre.1 hd
        · exact h.promotes d row hd ((Db.pending_congr (htxs d hdc)).symm.trans hw) }

/-- The slot of a user holds one job. -/
theorem FailedSlot.identity {u id id' : String} (h : FailedSlot env s u id) {st : StoredJob}
    (hst : s.slot env u = some st) (hid : st.job.identity = some id') : id' = id := by
  obtain ⟨st', hst', -, hid'⟩ := h
  obtain rfl := Option.some.inj (hst.symm.trans hst')
  exact Option.some.inj (hid.symm.trans hid')

/-- A statement that ends the transaction of the resolver. -/
def EndsResolver (c : ℕ) (stm : Statement) : Prop := c = 0 ∧ (stm = .commit ∨ stm = .rollback)

theorem note_sql (s : Shared) (c : ℕ) (stm : Statement) :
    ∃ release, s.note (.sql c stm) = { s with pendingRelease := release } ∧
      (EndsResolver c stm ∧ release = none ∨ ¬ EndsResolver c stm ∧ release = s.pendingRelease) := by
  by_cases h : EndsResolver c stm
  · refine ⟨none, ?_, .inl ⟨h, rfl⟩⟩
    obtain ⟨rfl, rfl | rfl⟩ := h
    · rfl
    · rfl
  · refine ⟨s.pendingRelease, ?_, .inr ⟨h, rfl⟩⟩
    unfold EndsResolver at h
    rcases Nat.eq_zero_or_pos c with rfl | hc
    · cases stm <;> first | rfl | simp at h
    · obtain ⟨c, rfl⟩ := Nat.exists_eq_succ_of_ne_zero (Nat.pos_iff_ne_zero.1 hc)
      cases stm <;> rfl

/-- The reservation a persister writes for a user without a row is in the ledger. -/
theorem Clean.ledger_of_row_none (hc : s.Clean env) (h : s.Inv env) {c : ℕ} (hc0 : c ≠ 0)
    (hp : GoodPayload env s.confirmed p) (hrow : s.stores.db.row? p.userId = none)
    (hk : s.stores.db.Holds c p.reservationId) :
    s.ledger env p.userId = some p.reservationId := by
  by_cases hrel : (p.userId, p.reservationId) ∈ s.released
  · obtain ⟨-, -, hsome | hpend⟩ := hc.gone _ _ hrel
    · rw [hrow] at hsome; cases hsome
    · exact absurd (h.repo.wf.holds_unique hk (hc.releasing _ _ hpend).1) hc0
  · exact hc.known _ hp.confirmed hrel

theorem Clean.sql (hc : s.Clean env) (h : s.Inv env) {c : ℕ} {stm : Statement}
    {r : Except Failure stm.Res} {db : Db} (hg : SqlGuard env s c stm)
    (hcommit : c = 0 → stm = .commit → ∀ u id, s.pendingRelease = some (u, id) →
      ∃ w, s.stores.db.pending 0 = some w ∧ w.row.userId = u ∧ w.row.id = id)
    (hroll : c = 0 → stm = .rollback → s.pendingRelease = none)
    (he : s.stores.db.exec c stm = some (r, db)) :
    ((s.note (.sql c stm)).setDb db).Clean env := by
  obtain ⟨release, hnote, hrelease⟩ := s.note_sql c stm
  obtain ⟨-, htxs, -⟩ := Db.exec_frame he
  have hev := Db.Evolves.exec h.repo.wf he
  -- a release that is no longer pending has left its marker
  have hmark : ∀ u id, s.pendingRelease = some (u, id) →
      release = some (u, id) ∨ db.RowIs u id .compensated := by
    intro u id hpend
    rcases hrelease with ⟨⟨rfl, rfl | rfl⟩, -⟩ | ⟨-, e⟩
    · obtain ⟨w, hw, rfl, rfl⟩ := hcommit rfl rfl u id hpend
      exact .inr ⟨w.row, h.repo.wf.row?_commit he hw, rfl, h.repo.marks w hw⟩
    · rw [hroll rfl rfl] at hpend
      cases hpend
    · exact .inl (e.trans hpend)
  have hwriting : ∀ d w, d ≠ 0 → db.pending d = some w →
      s.ledger env w.row.userId = some w.row.id := by
    intro d w hd hw
    by_cases hdc : d = c
    · subst hdc
      rcases Db.pending_exec he hw with ⟨hold, -⟩ | ⟨hnew, -⟩
      · exact hc.writing d w hd hold
      · have hid : ∀ p status, stm.payload? = some p →
            (p.toRow status).id = p.reservationId := fun p _ hp => h.canonical (hg.payload p hp)
        cases hnew with
        | insertPersisted p hn =>
          rw [Write.row, hid p _ rfl]
          have hk : s.stores.db.Holds d p.reservationId := by
            rw [← h.canonical (hg.payload p rfl)]
            exact hg.pre.2
          exact hc.ledger_of_row_none h hd (hg.payload p rfl) hn hk
        | promote p old _ =>
          rw [Write.row, hid p _ rfl]
          exact hg.promote p _ rfl
        | insertMarker p => exact absurd hg.pre.1 hd
        | updateMarker p old _ => exact absurd hg.pre.1 hd
    · exact hc.writing d w hd ((Db.pending_congr (htxs d hdc)).symm.trans hw)
  rw [hnote]
  exact
    { known := hc.known
      gone := fun u id hmem => by
        obtain ⟨hconf, hled, hrow | hpend⟩ := hc.gone u id hmem
        · exact ⟨hconf, hled, .inl (hev.grows u hrow)⟩
        · refine ⟨hconf, hled, ?_⟩
          rcases hmark u id hpend with e | ⟨row, hrow, -⟩
          · exact .inr e
          · refine .inl ?_
            show (db.row? u).isSome
            rw [hrow]
            rfl
      releasing := fun u id hpend => by
        rcases hrelease with ⟨-, rfl⟩ | ⟨hends, rfl⟩
        · cases hpend
        · obtain ⟨hk, hslot⟩ := hc.releasing u id hpend
          refine ⟨?_, hslot⟩
          by_cases h0 : c = 0
          · subst h0
            exact hk.exec he (fun e => hends ⟨rfl, .inl e⟩) fun e => hends ⟨rfl, .inr e⟩
          · exact (Db.holds_congr (htxs 0 (Ne.symm h0)) (Db.exec_frame he).1).2 hk
      slots := fun u st id hst hid => by
        rcases hc.slots u st id hst hid with hled | hrow | hpend
        · exact .inl hled
        · rcases h.repo.wf.row?_exec he u with e | ⟨rfl, w, hw, rfl, hrow'⟩
          · exact .inr (.inl ((Db.rowIs_congr e).2 hrow))
          · by_cases h0 : c = 0
            · subst h0
              -- a new marker of the user is that of the job in its slot
              obtain rfl := (h.marker w hw).2.identity hst hid
              exact .inr (.inl ⟨w.row, hrow', rfl, h.repo.marks w hw⟩)
            · refine .inl ?_
              show (s.ledger env w.row.userId).isSome
              rw [hc.writing c w h0 hw]
              rfl
        · rcases hmark u id hpend with e | hrow
          · exact .inr (.inr e)
          · exact .inr (.inl hrow)
      persisted := fun u id hrow => by
        rcases h.repo.wf.row?_exec he u with e | ⟨-, w, hw, rfl, hrow'⟩
        · exact hc.persisted u id ((Db.rowIs_congr e).1 hrow)
        · obtain ⟨row, hr, rfl, hst⟩ := hrow
          obtain rfl := Option.some.inj (hrow'.symm.trans hr)
          by_cases h0 : c = 0
          · subst h0
            rw [h.repo.marks w hw] at hst
            cases hst
          · exact hc.writing c w h0 hw
      writing := hwriting
      conserved := hc.conserved }

/-! ## Scripts -/

@[simp] theorem sale_setSale (s : Shared) (x : Sale) : (s.setSale env x).sale env = x :=
  Function.update_self ..

theorem ledger_setSale (s : Shared) (x : Sale) (u : String) :
    (s.setSale env x).ledger env u = (x.reservations.hget u).map ledgerIdentity := by
  unfold ledger; rw [sale_setSale]

theorem ledger_eq_none {u : String} :
    s.ledger env u = none ↔ (s.sale env).reservations.hget u = none := by
  unfold ledger; rw [Option.map_eq_none_iff]

theorem ledger_eq_some {u id : String} : s.ledger env u = some id ↔
    ∃ v, (s.sale env).reservations.hget u = some v ∧ ledgerIdentity v = id :=
  Option.map_eq_some_iff

/-- An entry of the ledger has the identity of a confirmed purchase of its user. -/
theorem Inv.confirmed_of_ledger (h : s.Inv env) {u id : String} (hl : s.ledger env u = some id) :
    ∃ t, s.Confirmed u id t := by
  obtain ⟨v, hv, rfl⟩ := ledger_eq_some.1 hl
  obtain ⟨id, t, hc, rfl | rfl⟩ := h.entries u v hv
  · exact ⟨t, by rw [ledgerIdentity_of_isUuid _ (h.ids _ hc).1]; exact hc⟩
  · exact ⟨t, by rw [ledgerIdentity_of_isUuid _ (h.ids _ hc).1]; exact hc⟩

/-- The invariant after a change of the keys, from what it says about them. -/
theorem Inv.setSale (h : s.Inv env) {x : Sale}
    (hconfig : ∀ cfg, x.config = some cfg → cfg = env.sale)
    (hmembers : ∀ u, x.buyers.sismember u = x.reservations.hexists u)
    (hentries : ∀ u v, x.reservations.hget u = some v → ∃ id t, s.Confirmed u id t ∧
      (v = ledgerValue id (Text.luaTostring t) ∨ v = ledgerValue id (toString t)))
    (hmarks : ∀ u id, s.stores.db.RowIs u id .compensated →
      (x.reservations.hget u).map ledgerIdentity ≠ some id)
    (hmarker : ∀ w, s.stores.db.pending 0 = some w →
      (x.reservations.hget w.row.userId).map ledgerIdentity ≠ some w.row.id)
    (hpromotes : ∀ c row, c ≠ 0 → s.stores.db.pending c = some (.update row) →
      (x.reservations.hget row.userId).map ledgerIdentity = some row.id) :
    (s.setSale env x).Inv env where
  repo := h.repo
  ids := h.ids
  unique := h.unique
  window := h.window
  config := by rw [sale_setSale]; exact hconfig
  members := by rw [sale_setSale]; exact hmembers
  entries := by rw [sale_setSale]; exact hentries
  adds := h.adds
  distinct := h.distinct
  jobs := h.jobs
  locks := h.locks
  rows := h.rows
  writes := h.writes
  marks u id hrow := by rw [ledger_setSale]; exact hmarks u id hrow
  marker w hw := ⟨by rw [ledger_setSale]; exact hmarker w hw, (h.marker w hw).2⟩
  promotes c row hc hw := by rw [ledger_setSale]; exact hpromotes c row hc hw

/-- A script that leaves the entries alone. -/
theorem Inv.setSale_same (h : s.Inv env) {x : Sale}
    (hconfig : ∀ cfg, x.config = some cfg → cfg = env.sale)
    (hmembers : ∀ u, x.buyers.sismember u = x.reservations.hexists u)
    (hres : x.reservations = (s.sale env).reservations) : (s.setSale env x).Inv env := by
  refine h.setSale hconfig hmembers ?_ ?_ ?_ ?_
  · rw [hres]; exact h.entries
  · rw [hres]; exact h.marks
  · rw [hres]; exact fun w hw => (h.marker w hw).1
  · rw [hres]; exact h.promotes

theorem Clean.setSale_same (hc : s.Clean env) {x : Sale}
    (hres : x.reservations = (s.sale env).reservations) (hcons : Conserved x 0) :
    (s.setSale env x).Clean env := by
  have hled : ∀ u, (s.setSale env x).ledger env u = s.ledger env u := fun u => by
    rw [ledger_setSale, hres]; rfl
  exact
    { known := fun c hm hr => (hled _).trans (hc.known c hm hr)
      gone := fun u id hm => by rw [hled]; exact hc.gone u id hm
      releasing := hc.releasing
      slots := fun u st id hst hid => by rw [hled]; exact hc.slots u st id hst hid
      persisted := fun u id hrow => (hled _).trans (hc.persisted u id hrow)
      writing := fun c w h0 hw => (hled _).trans (hc.writing c w h0 hw)
      conserved := by rw [sale_setSale]; exact hcons }

theorem SysInv.setSale_same {clean : Prop} (h : s.SysInv env clean) {x : Sale}
    (hconfig : ∀ cfg, x.config = some cfg → cfg = env.sale)
    (hmembers : ∀ u, x.buyers.sismember u = x.reservations.hexists u)
    (hres : x.reservations = (s.sale env).reservations)
    (hcons : Conserved (s.sale env) 0 → Conserved x 0) : (s.setSale env x).SysInv env clean :=
  ⟨h.1.setSale_same hconfig hmembers hres,
    fun hc => (h.2 hc).setSale_same hres (hcons (h.2 hc).conserved)⟩

theorem setSale_self (s : Shared) : s.setSale env (s.sale env) = s := by
  unfold setSale Stores.setSale Shared.sale
  rw [Function.update_eq_self]

end Shared

end FlashSale
