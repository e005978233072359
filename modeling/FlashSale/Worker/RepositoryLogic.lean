import FlashSale.Worker.OrderRepository
import FlashSale.Worker.Rows

/-!
# What `persist` and `resolveFailed` do under interference

Both are proved once, over any system that contains the stores (`RepoLogic`): whatever the other
clients do between the statements is within `Db.Rely`.

* `wp_persist`: a call that returns `persisted` or `idempotent` leaves the row `(id, persisted)`,
  one that returns `compensated` saw the row `(id, compensated)` when it committed, and a row is
  promoted only while the ledger names the reservation.
* `wp_resolveFailed`: the compensation runs only while the advisory lock of the reservation is held
  and its row is not persisted, or after the row was found compensated.
-/

namespace FlashSale

open Prog (Logic andThen orElse wp_bind wp_call wp_call_bind wp_catchWith wp_mono wp_ofExcept
  wp_throwIf)

variable {S : Type}

/-- A logic over states that contain the stores, for the programs of client `c`. -/
structure RepoLogic (L : Logic Call Call.Res Failure S) (stores : S → Stores) (c : ℕ) : Prop where
  rely : ∀ {s s'}, L.rely s s' → Db.Rely c (stores s).db (stores s').db
  inv : ∀ {s}, L.inv s → (stores s).db.RepoInv
  step : ∀ {o s r s'}, L.step o s r s' → ∃ fault, (stores s).performWith fault o = some (r, stores s')

variable {L : Logic Call Call.Res Failure S} {stores : S → Stores} {c : ℕ} {s s' : S}

/-- A statement runs, perhaps with its answer lost, or does not reach the database. -/
theorem RepoLogic.sql (hL : RepoLogic L stores c) {stm : Statement} {r : Except Failure stm.Res}
    (h : L.step (.sql c stm) s r s') :
    (∃ r', (stores s).db.exec c stm = some (r', (stores s').db) ∧
        (r = r' ∨ r = .error .upstream)) ∨
      (r = .error .upstream ∧ (stores s').db = (stores s).db ∧ stm ≠ .rollback) := by
  obtain ⟨fault, hf⟩ := hL.step h
  rcases Stores.performWith_cases hf with ⟨r', hp, hr⟩ | ⟨hr, hs, hrb⟩
  · obtain ⟨⟨r'', db'⟩, he, e⟩ := Option.map_eq_some_iff.1 hp
    obtain ⟨rfl, hs'⟩ := Prod.mk.inj e
    refine .inl ⟨r'', ?_, hr⟩
    rw [he, ← hs']
  · refine .inr ⟨hr, by rw [hs], ?_⟩
    rintro rfl
    cases hrb

/-- After a rollback, successful or not, the client has no transaction. -/
theorem RepoLogic.rollback (hL : RepoLogic L stores c) {r : Except Failure Unit}
    (h : L.step (.sql c .rollback) s r s') : (stores s').db = (stores s).db.endTx c := by
  rcases hL.sql h with ⟨r', he, -⟩ | ⟨-, -, hne⟩
  · exact (Db.exec_rollback he).2
  · exact absurd rfl hne

/-! ## Transactions -/

section Transaction

variable {α : Type} {work : WorkerM α} {Q : Except Failure α → S → Prop} (E : S → Prop)
  (Mid : α → S → Prop)

/-- **Transactions.** `Mid` is what the work leaves for the commit, `E` what is kept on every path
that rolls back. -/
theorem wp_transaction (hL : RepoLogic L stores c)
    (hpre : ∀ s, L.inv s → E s → L.pre (.sql c .begin) s ∧ L.pre (.sql c .rollback) s)
    (hErely : ∀ s s', E s → L.rely s s' → L.inv s' → E s')
    (hEsql : ∀ s s' stm r, (stm = .begin ∨ stm = .rollback) → L.inv s → E s →
      L.step (.sql c stm) s r s' → L.inv s' → E s')
    (hwork : ∀ s, L.inv s → E s → (stores s).db.tx? c = some .start →
      work.wp L (Prog.post Mid fun _ => E) s)
    (hMid : ∀ a s s', Mid a s → L.rely s s' → L.inv s' → Mid a s')
    (hcommit : ∀ a s, L.inv s → Mid a s → L.pre (.sql c .commit) s ∧
      ∀ r s', L.step (.sql c .commit) s r s' → L.inv s' →
        Prog.post (fun _ s' => ∀ s'', L.rely s' s'' → L.inv s'' → Q (.ok a) s'') (fun _ => E) r s')
    (hend : ∀ e s, L.inv s → E s → (stores s).db.tx? c = none → Q (.error e) s)
    (hs : E s) (htx : (stores s).db.tx? c = none) : (transaction c work).wp L Q s := by
  refine wp_catchWith ?_
  -- the handler: roll back, swallow its error, rethrow
  have hhandler : ∀ e s, E s → Prog.wp L (do
      tryCatch (FlashSale.sql c .rollback) fun _ => return ()
      throw e : WorkerM α) Q s := by
    intro e s hs
    have hroll : Prog.wp L (tryCatch (FlashSale.sql c .rollback) fun _ => return () : WorkerM Unit)
        (andThen L (fun _ => Prog.throw e) Q) s := by
      refine wp_catchWith (wp_call E hs hErely fun s hi hs => ?_)
      refine ⟨(hpre s hi hs).2, fun r s' hstep hi' s'' hr hi'' => ?_⟩
      have hs' := hErely s' s'' (hEsql s s' _ r (.inr rfl) hi hs hstep hi') hr hi''
      have hnone : (stores s'').db.tx? c = none := by
        rw [(hL.rely hr).tx, hL.rollback hstep]
        simp
      have hdone : ∀ t, L.rely s'' t → L.inv t → Q (.error e) t := fun t ht hit =>
        hend e t hit (hErely s'' t hs' ht hit) (by rw [(hL.rely ht).tx]; exact hnone)
      cases r with
      | ok a => exact hdone
      | error _ => exact fun t ht hit u hu hiu => hdone u (L.trans ht hu) hiu
    exact wp_bind hroll
  refine wp_call_bind (fun s => E s ∧ (stores s).db.tx? c = none) ⟨hs, htx⟩ ?_ ?_
  · exact fun s s' h hr hi => ⟨hErely s s' h.1 hr hi, by rw [(hL.rely hr).tx]; exact h.2⟩
  · rintro s hi ⟨hs, htx⟩
    refine ⟨(hpre s hi hs).1, fun r s' hstep hi' => ?_⟩
    have hs' := hEsql s s' _ r (.inl rfl) hi hs hstep hi'
    cases r with
    | error e =>
      exact fun s'' hr hi'' => hhandler _ s'' (hErely s' s'' hs' hr hi'')
    | ok a =>
      have hstart : (stores s').db.tx? c = some .start := by
        rcases hL.sql hstep with ⟨r', he, -⟩ | ⟨h, -⟩
        · obtain ⟨-, ⟨hsome, -⟩ | ⟨-, e⟩⟩ := Db.exec_begin he
          · rw [htx] at hsome; cases hsome
          · rw [e]; simp
        · cases h
      refine wp_bind (wp_mono (hwork s' hi' hs' hstart) ?_)
      intro r s hi hr
      cases r with
      | error e => exact hhandler _ s hr
      | ok a =>
        refine wp_call_bind (Mid a) hr (hMid a) fun s hi hmid => ?_
        obtain ⟨hp, hk⟩ := hcommit a s hi hmid
        refine ⟨hp, fun r s' hstep hi' => ?_⟩
        have hk := hk r s' hstep hi'
        cases r with
        | ok _ => exact hk
        | error e => exact fun s'' hr hi'' => hhandler _ s'' (hErely s' s'' hk hr hi'')

end Transaction

/-! ## `persist` -/

section Persist

variable (p : OrdersQueueJobPayload)

/-- The statements of `persist`. -/
inductive PersistStatement : Statement → Prop where
  | begin : PersistStatement .begin
  | backendPid : PersistStatement .backendPid
  | lockReservation : PersistStatement (.lockReservation p.reservationId)
  | insertPersisted : PersistStatement (.insertPersisted p)
  | selectUserForUpdate : PersistStatement (.selectUserForUpdate p.userId)
  | promoteCompensated (id : String) : PersistStatement (.promoteCompensated p id)
  | commit : PersistStatement .commit
  | rollback : PersistStatement .rollback

/-- What the system gives a persisting client: every statement that meets `SqlPre` is allowed, a
promotion once the ledger names the reservation (`Ledger`), which stays so while the advisory lock
is held; a marker of the reservation implies `Marked`, which stays. -/
structure PersistLogic (L : Logic Call Call.Res Failure S) (stores : S → Stores) (c : ℕ)
    (Ledger Marked : S → Prop) : Prop extends RepoLogic L stores c where
  client : c ≠ 0
  canonical : pgUuid p.reservationId = p.reservationId
  sqlPre : ∀ s stm, L.inv s → PersistStatement p stm → (stores s).db.SqlPre c stm →
    (∀ id, stm = .promoteCompensated p id → Ledger s) → L.pre (.sql c stm) s
  hgetPre : ∀ s, L.inv s → L.pre (.hget p.saleId p.userId) s
  ledger : ∀ s v entry, L.inv s → ((stores s).sales p.saleId).reservations.hget p.userId = some v →
    parseReservationEntry p.userId v = .ok entry → entry.reservationId = p.reservationId → Ledger s
  ledgerRely : ∀ s s', (stores s).db.Holds c p.reservationId → Ledger s → L.rely s s' →
    L.inv s' → Ledger s'
  ledgerHget : ∀ s s' r, Ledger s → L.step (.hget p.saleId p.userId) s r s' → Ledger s'
  marked : ∀ s, L.inv s → (stores s).db.RowIs p.userId p.reservationId .compensated → Marked s
  markedRely : ∀ s s', Marked s → L.rely s s' → L.inv s' → Marked s'

/-- What the work of `persist` leaves for its commit. -/
def PersistWork (db : Db) (c : ℕ) : PersistResult → Prop
  | .persisted => ∃ w, db.pending c = some w ∧ w.row = p.toRow .persisted
  | .idempotent => db.RowIs p.userId p.reservationId .persisted
  | .compensated => db.HoldsRow c p.userId ∧ db.pending c = none ∧
    db.RowIs p.userId p.reservationId .compensated

/-- What `persist` leaves when it returns. -/
def PersistDone (db : Db) (marked : Prop) : PersistResult → Prop
  | .compensated => marked
  | _ => db.RowIs p.userId p.reservationId .persisted

variable {p} {Ledger Marked : S → Prop}

theorem PersistWork.rely {db db' : Db} {r : PersistResult} (h : PersistWork p db c r)
    (hr : Db.Rely c db db') : PersistWork p db' c r := by
  cases r with
  | persisted =>
    obtain ⟨w, hw, e⟩ := h
    exact ⟨w, (Db.pending_congr hr.tx).trans hw, e⟩
  | idempotent => exact hr.rowIs_persisted h
  | compensated =>
    obtain ⟨hl, hw, hrow⟩ := h
    exact ⟨hr.holdsRow.2 hl, (Db.pending_congr hr.tx).trans hw,
      (Db.rowIs_congr (hr.locked _ hl)).2 hrow⟩

theorem PersistWork.commit {db db' : Db} {r : PersistResult} (h : PersistWork p db c r)
    (hwf : db.WF) (hcanon : pgUuid p.reservationId = p.reservationId)
    {a : Except Failure Unit} (he : db.exec c .commit = some (a, db')) :
    PersistDone p db' (db'.RowIs p.userId p.reservationId .compensated) r := by
  cases r with
  | persisted =>
    obtain ⟨w, hw, e⟩ := h
    refine ⟨w.row, ?_, by rw [e]; exact hcanon, by rw [e]; rfl⟩
    have hu : p.userId = w.row.userId := by rw [e]; rfl
    rw [hu]
    exact hwf.row?_commit he hw
  | idempotent =>
    obtain ⟨row, hrow, hid, hs⟩ := h
    exact ⟨row, (Db.Evolves.exec hwf he).keeps _ row hrow hs, hid, hs⟩
  | compensated =>
    obtain ⟨-, hw, hrow⟩ := h
    refine (Db.rowIs_congr ?_).2 hrow
    rcases hwf.row?_exec he p.userId with e | ⟨-, w, hw', -⟩
    · exact e
    · rw [hw] at hw'; cases hw'

/-- What client `c` knows inside the transaction of `persist`: it holds the advisory lock. -/
structure InPersist (p : OrdersQueueJobPayload) (db : Db) (c : ℕ) (tx : Tx) : Prop where
  begun : db.tx? c = some tx
  key : db.Holds c p.reservationId
  write : tx.write = none

theorem InPersist.rely {db db' : Db} {tx : Tx} (h : InPersist p db c tx) (hr : Db.Rely c db db') :
    InPersist p db' c tx :=
  ⟨hr.tx.trans h.begun, hr.holds.2 h.key, h.write⟩

/-- The work after the conflicting row was read and locked. -/
theorem wp_persistConflict (hL : PersistLogic p L stores c Ledger Marked) {currentId : String}
    {tx : Tx} (hin : InPersist p (stores s).db c tx) (hlock : p.userId ∈ tx.rows)
    (hcur : (stores s).db.RowIs p.userId currentId .compensated)
    (hne : currentId ≠ p.reservationId) :
    Prog.wp L (do
      let ledger ← Store.getReservation p.saleId p.userId
      Prog.throwIf (ledger.map (·.reservationId) ≠ some p.reservationId)
        (.error ("current reservation identity mismatch for user " ++ p.userId))
      let updated ← sql c (.promoteCompensated p currentId)
      Prog.throwIf (updated ≠ 1)
        (.error "guarded compensated-order promotion affected unexpected row count")
      return PersistResult.persisted : WorkerM PersistResult)
      (Prog.post (fun a s => PersistWork p (stores s).db c a) fun _ _ => True) s := by
  have hstable : ∀ s s', (InPersist p (stores s).db c tx ∧
      (stores s).db.RowIs p.userId currentId .compensated) → L.rely s s' → L.inv s' →
      InPersist p (stores s').db c tx ∧
        (stores s').db.RowIs p.userId currentId .compensated := fun s s' h hr _ =>
    ⟨h.1.rely (hL.rely hr), (Db.rowIs_congr ((hL.rely hr).locked _ ⟨tx, h.1.begun, hlock⟩)).2 h.2⟩
  refine wp_bind (wp_bind (wp_ofExcept fun s hr hi => ?_))
  have hs := hstable _ s ⟨hin, hcur⟩ hr hi
  cases assertSaleId p.saleId with
  | error e => trivial
  | ok _ =>
    refine wp_call_bind _ hs hstable fun s hi hs => ⟨hL.hgetPre s hi, fun r s' hstep hi' => ?_⟩
    obtain ⟨fault, hf⟩ := hL.step hstep
    obtain ⟨hsame, hr⟩ := Stores.performWith_read rfl hf
    rcases hr with rfl | rfl
    swap
    · exact fun _ _ _ => trivial
    cases hv : ((stores s).sales p.saleId).reservations.hget p.userId with
    | none => exact fun _ _ _ _ _ _ => trivial
    | some v =>
      refine wp_bind (wp_ofExcept fun s'' hr hi'' => ?_)
      cases hparse : parseReservationEntry p.userId v with
      | error e => trivial
      | ok entry =>
        intro t ht hit
        refine wp_throwIf (fun _ _ _ _ => trivial) fun hid => ?_
        have hid : entry.reservationId = p.reservationId := by simpa using hid
        -- the ledger names the reservation, and the lock keeps it so
        have hled : Ledger s' := hL.ledgerHget s s' _ (hL.ledger s v entry hi hv hparse hid) hstep
        have hs' : InPersist p (stores s').db c tx ∧
            (stores s').db.RowIs p.userId currentId .compensated := by rw [hsame]; exact hs
        have hst := hstable s' t hs' (L.trans hr ht) hit
        have hledt := hL.ledgerRely s' t hs'.1.key hled (L.trans hr ht) hit
        refine wp_call_bind (fun s => (InPersist p (stores s).db c tx ∧
          (stores s).db.RowIs p.userId currentId .compensated) ∧ Ledger s) ⟨hst, hledt⟩ ?_ ?_
        · exact fun s s' h hr hi => ⟨hstable s s' h.1 hr hi, hL.ledgerRely s s' h.1.1.key h.2 hr hi⟩
        · rintro s hi ⟨hs, hled⟩
          refine ⟨hL.sqlPre s _ hi (.promoteCompensated currentId)
            ⟨hL.client, by rw [hL.canonical]; exact hs.1.key, by rw [hL.canonical]; exact hne⟩
            fun _ _ => hled, fun r s' hstep hi' => ?_⟩
          cases r with
          | error e => exact fun _ _ _ => trivial
          | ok n =>
            rcases hL.sql hstep with ⟨r', he, hr' | hr'⟩ | ⟨h, -⟩
            · subst hr'
              rcases Db.exec_promoteCompensated he with
                ⟨h0, -⟩ | ⟨t, old, -, h1, -, -, -, -, -, -, -, e⟩
              · obtain rfl : n = 0 := by simpa using h0
                exact fun _ _ _ => trivial
              · obtain rfl : n = 1 := by simpa using h1
                refine wp_throwIf (by simp) fun _ s'' hr hi'' => ?_
                have hwork : PersistWork p (stores s').db c .persisted :=
                  ⟨.update (p.toRow .persisted), by rw [e]; simp [Db.pending], rfl⟩
                exact hwork.rely (hL.rely hr)
            · cases hr'
            · cases h

theorem wp_persistWork (hL : PersistLogic p L stores c Ledger Marked)
    (htx : (stores s).db.tx? c = some .start) :
    (persistWork c p).wp L
      (Prog.post (fun a s => PersistWork p (stores s).db c a) fun _ _ => True) s := by
  have htxStable : ∀ t s s', (stores s).db.tx? c = some t → L.rely s s' → L.inv s' →
      (stores s').db.tx? c = some t := fun t s s' h hr _ => by rw [(hL.rely hr).tx]; exact h
  have hinStable : ∀ t s s', InPersist p (stores s).db c t → L.rely s s' → L.inv s' →
      InPersist p (stores s').db c t := fun t s s' h hr _ => h.rely (hL.rely hr)
  refine wp_call_bind _ htx (htxStable _) fun s hi htx =>
    ⟨hL.sqlPre s _ hi .backendPid trivial (by simp), fun r s' hstep hi' => ?_⟩
  cases r with
  | error e => exact fun _ _ _ => trivial
  | ok pid =>
  have htx' : (stores s').db.tx? c = some .start := by
    rcases hL.sql hstep with ⟨r', he, -⟩ | ⟨h, -⟩
    · rw [(Db.exec_backendPid he).2]; exact htx
    · cases h
  refine wp_call_bind _ htx' (htxStable _) fun s hi htx =>
    ⟨hL.sqlPre s _ hi .lockReservation trivial (by simp), fun r s' hstep hi' => ?_⟩
  cases r with
  | error e => exact fun _ _ _ => trivial
  | ok _ =>
  have hin : ∃ t, InPersist p (stores s').db c t := by
    rcases hL.sql hstep with ⟨r', he, hr' | hr'⟩ | ⟨h, -⟩
    · subst hr'
      rcases Db.exec_lockReservation he with ⟨h, -⟩ | ⟨t, ht, -, -, e⟩
      · cases h
      · obtain rfl := Option.some.inj (htx.symm.trans ht)
        rw [e]
        exact ⟨_, Db.tx?_setTx_self, ⟨_, Db.tx?_setTx_self, by simp⟩, rfl⟩
    · cases hr'
    · cases h
  obtain ⟨tx, hin⟩ := hin
  refine wp_call_bind _ hin (hinStable tx) fun s hi hin =>
    ⟨hL.sqlPre s _ hi .insertPersisted ⟨hL.client, by rw [hL.canonical]; exact hin.key⟩ (by simp),
      fun r s' hstep hi' => ?_⟩
  cases r with
  | error e => exact fun _ _ _ => trivial
  | ok inserted =>
  have hcases : inserted = 1 ∧ PersistWork p (stores s').db c .persisted ∨
      inserted = 0 ∧ InPersist p (stores s').db c tx := by
    rcases hL.sql hstep with ⟨r', he, hr' | hr'⟩ | ⟨h, -⟩
    · subst hr'
      rcases Db.exec_insertPersisted he with ⟨h, -⟩ | ⟨h0, -, e⟩ | ⟨t, -, h1, -, -, -, -, e⟩
      · cases h
      · exact .inr ⟨by simpa using h0, by rw [e]; exact hin⟩
      · exact .inl ⟨by simpa using h1, .insert (p.toRow .persisted),
          by rw [e]; simp [Db.pending], rfl⟩
    · cases hr'
    · cases h
  rcases hcases with ⟨rfl, hwork⟩ | ⟨rfl, hin⟩
  · exact fun s'' hr hi'' => hwork.rely (hL.rely hr)
  refine wp_call_bind _ hin (hinStable tx) fun s hi hin =>
    ⟨hL.sqlPre s _ hi .selectUserForUpdate trivial (by simp), fun r s' hstep hi' => ?_⟩
  cases r with
  | error e => exact fun _ _ _ => trivial
  | ok current =>
  rcases hL.sql hstep with ⟨r', he, hr' | hr'⟩ | ⟨h, -⟩
  · subst hr'
    rcases Db.exec_selectUserForUpdate he with ⟨h, -⟩ | ⟨h, -, -⟩ | ⟨t, row, ht, hrow, h, -, e⟩
    · cases h
    · obtain rfl : current = none := by simpa using h
      exact fun _ _ _ => trivial
    · obtain rfl : current = some (row.id, row.status) := by simpa using h
      obtain rfl := Option.some.inj (hin.begun.symm.trans ht)
      have hrow' : (stores s').db.RowIs p.userId row.id row.status :=
        ⟨row, by rw [e]; exact hrow, rfl, rfl⟩
      have hlock : (stores s').db.HoldsRow c p.userId :=
        ⟨_, by rw [e]; exact Db.tx?_setTx_self, by simp⟩
      have hpend : (stores s').db.pending c = none := by rw [e]; simp [Db.pending, hin.write]
      dsimp only [Prog.post]
      by_cases hid : row.id = p.reservationId
      · rw [if_pos hid]
        rw [hid] at hrow'
        intro s'' hr hi''
        cases hst : row.status with
        | persisted =>
          rw [hst] at hrow'
          exact PersistWork.rely (r := .idempotent) hrow' (hL.rely hr)
        | compensated =>
          rw [hst] at hrow'
          exact PersistWork.rely (r := .compensated) ⟨hlock, hpend, hrow'⟩ (hL.rely hr)
      · rw [if_neg hid]
        refine wp_throwIf (fun _ _ _ _ => trivial) fun hst => ?_
        have hcomp : row.status = .compensated := by
          cases h : row.status with
          | persisted => exact absurd h hst
          | compensated => rfl
        rw [hcomp] at hrow'
        have hin' : InPersist p (stores s').db c { tx with rows := p.userId :: tx.rows } := by
          obtain ⟨t, ht, hk⟩ := hin.key
          obtain rfl := Option.some.inj (hin.begun.symm.trans ht)
          rw [e]
          exact ⟨Db.tx?_setTx_self, ⟨_, Db.tx?_setTx_self, hk⟩, hin.write⟩
        exact wp_persistConflict hL hin' (by simp) hrow' hid
  · cases hr'
  · cases h

/-- **`persist`.** -/
theorem wp_persist (hL : PersistLogic p L stores c Ledger Marked)
    (htx : (stores s).db.tx? c = none) :
    (persist c p).wp L (fun r s => (stores s).db.tx? c = none ∧
      ∀ a, r = .ok a → PersistDone p (stores s).db (Marked s) a) s := by
  refine wp_transaction (fun _ => True) (fun a s => PersistWork p (stores s).db c a) hL.toRepoLogic
    ?_ ?_ ?_ ?_ ?_ ?_ ?_ trivial htx
  · intro s hi _
    exact ⟨hL.sqlPre s _ hi .begin trivial (by simp), hL.sqlPre s _ hi .rollback trivial (by simp)⟩
  · exact fun _ _ _ _ _ => trivial
  · exact fun _ _ _ _ _ _ _ _ _ => trivial
  · exact fun s hi _ htx => wp_persistWork hL htx
  · exact fun a s s' h hr _ => h.rely (hL.rely hr)
  · intro a s hi hmid
    refine ⟨hL.sqlPre s _ hi .commit trivial (by simp), fun r s' hstep hi' => ?_⟩
    cases r with
    | error e => trivial
    | ok _ =>
      intro s'' hr hi''
      rcases hL.sql hstep with ⟨r', he, -⟩ | ⟨h, -⟩
      · have hdone := hmid.commit (hL.inv hi).wf hL.canonical he
        have hnone : (stores s').db.tx? c = none := by
          obtain ⟨-, ⟨hn, e⟩ | ⟨tx, -, e⟩⟩ := Db.exec_commit he
          · rw [e]; exact hn
          · rw [e]; simp
        refine ⟨by rw [(hL.rely hr).tx]; exact hnone, ?_⟩
        rintro _ ⟨⟩
        cases a with
        | persisted => exact (hL.rely hr).rowIs_persisted hdone
        | idempotent => exact (hL.rely hr).rowIs_persisted hdone
        | compensated => exact hL.markedRely s' s'' (hL.marked s' hi' hdone) hr hi''
      · cases h
  · exact fun e s hi _ hn => ⟨hn, by simp⟩

end Persist

/-! ## `resolveFailed` -/

section Resolve

variable (p : OrdersQueueJobPayload)

/-- The statements of `resolveFailed`. -/
inductive ResolveStatement : Statement → Prop where
  | begin : ResolveStatement .begin
  | lockReservation : ResolveStatement (.lockReservation p.reservationId)
  | selectUserForUpdate : ResolveStatement (.selectUserForUpdate p.userId)
  | insertMarker : ResolveStatement (.insertMarker p)
  | updateMarker (id : String) : ResolveStatement (.updateMarker p id)
  | commit : ResolveStatement .commit
  | rollback : ResolveStatement .rollback

/-- The transaction has the marker of the reservation pending. -/
def MarkerPending (db : Db) : Prop := ∃ w, db.pending 0 = some w ∧ w.row = p.toRow .compensated

/-- What the system gives the resolver. `Frame` is kept by everything the resolver and others do;
`Gone` says that the reservation has left the ledger, as it has after its compensation or once its
marker is committed; `Quiet` says that this transaction has released nothing, as is the case before
the compensation and after one for a user with a persisted row. -/
structure ResolveLogic (L : Logic Call Call.Res Failure S) (stores : S → Stores)
    (Frame Gone Quiet : S → Prop) : Prop extends RepoLogic L stores 0 where
  canonical : pgUuid p.reservationId = p.reservationId
  frameRely : ∀ s s', Frame s → L.rely s s' → L.inv s' → Frame s'
  frameSql : ∀ s s' stm r, Frame s → L.step (.sql 0 stm) s r s' → Frame s'
  frameComp : ∀ s s' r, L.inv s → Frame s →
    L.step (.compensate p.saleId p.userId p.reservationId) s r s' → L.inv s' → Frame s'
  goneRely : ∀ s s', Gone s → L.rely s s' → L.inv s' → Gone s'
  goneSql : ∀ s s' stm r, Gone s → L.step (.sql 0 stm) s r s' → Gone s'
  gone : ∀ s s' a, L.inv s → Frame s →
    L.step (.compensate p.saleId p.userId p.reservationId) s (.ok a) s' → L.inv s' → Gone s'
  marked : ∀ s, L.inv s → Frame s → (stores s).db.RowIs p.userId p.reservationId .compensated →
    Gone s
  quietRely : ∀ s s', Quiet s → L.rely s s' → L.inv s' → Quiet s'
  quietStart : ∀ s, L.inv s → (stores s).db.tx? 0 = some .start → Quiet s
  quietSql : ∀ s s' stm r, Quiet s → L.step (.sql 0 stm) s r s' → Quiet s'
  quietComp : ∀ s s' a id, L.inv s → Frame s → Quiet s → id ≠ p.reservationId →
    (stores s).db.RowIs p.userId id .persisted →
    L.step (.compensate p.saleId p.userId p.reservationId) s (.ok a) s' → L.inv s' → Quiet s'
  sqlPre : ∀ s stm, L.inv s → Frame s → ResolveStatement p stm → (stores s).db.SqlPre 0 stm →
    (stm = .insertMarker p ∨ (∃ id, stm = .updateMarker p id) → Gone s) →
    (stm = .commit → Quiet s ∨ MarkerPending p (stores s).db) → L.pre (.sql 0 stm) s
  compOpen : ∀ s, L.inv s → Frame s → (stores s).db.Holds 0 p.reservationId →
    ¬ (stores s).db.RowIs p.userId p.reservationId .persisted →
    L.pre (.compensate p.saleId p.userId p.reservationId) s
  compClosed : ∀ s, L.inv s → Frame s → Gone s →
    ¬ (stores s).db.RowIs p.userId p.reservationId .persisted →
    L.pre (.compensate p.saleId p.userId p.reservationId) s

variable {p} {Frame Gone Quiet : S → Prop}

/-- What the work of `resolveFailed` leaves for its commit. -/
def ResolveWork (p : OrdersQueueJobPayload) (Gone Quiet : S → Prop) (db : Db) (s : S) :
    ResolveFailedResult × Bool → Prop
  | (.persisted, false) => Quiet s ∧ db.RowIs p.userId p.reservationId .persisted
  | (.persisted, true) => False
  | (_, true) => Quiet s ∧ db.HoldsRow 0 p.userId ∧ db.pending 0 = none ∧
    db.RowIs p.userId p.reservationId .compensated
  | (_, false) => Gone s ∧ (Quiet s ∨ MarkerPending p db)

/-- What the commit of `resolveFailed` leaves. -/
def ResolveCommitted (p : OrdersQueueJobPayload) (Gone : S → Prop) (db : Db) (s : S) :
    ResolveFailedResult × Bool → Prop
  | (.persisted, false) => db.RowIs p.userId p.reservationId .persisted
  | (.persisted, true) => False
  | (_, true) => Gone s ∧ (db.RowIs p.userId p.reservationId .compensated ∨
    ∃ id, id ≠ p.reservationId ∧ db.RowIs p.userId id .persisted)
  | (_, false) => Gone s

theorem MarkerPending.rely {db db' : Db} (h : MarkerPending p db) (hr : Db.Rely 0 db db') :
    MarkerPending p db' := by
  obtain ⟨w, hw, e⟩ := h
  exact ⟨w, (Db.pending_congr hr.tx).trans hw, e⟩

theorem ResolveLogic.workRely (hL : ResolveLogic p L stores Frame Gone Quiet)
    {a : ResolveFailedResult × Bool} (h : ResolveWork p Gone Quiet (stores s).db s a)
    (hr : L.rely s s') (hi : L.inv s') : ResolveWork p Gone Quiet (stores s').db s' a := by
  have hdb := hL.rely hr
  have htrue : (Quiet s ∧ (stores s).db.HoldsRow 0 p.userId ∧ (stores s).db.pending 0 = none ∧
      (stores s).db.RowIs p.userId p.reservationId .compensated) →
      Quiet s' ∧ (stores s').db.HoldsRow 0 p.userId ∧ (stores s').db.pending 0 = none ∧
        (stores s').db.RowIs p.userId p.reservationId .compensated := fun ⟨hq, hl, hw, hrow⟩ =>
    ⟨hL.quietRely s s' hq hr hi, hdb.holdsRow.2 hl, (Db.pending_congr hdb.tx).trans hw,
      (Db.rowIs_congr (hdb.locked _ hl)).2 hrow⟩
  have hfalse : (Gone s ∧ (Quiet s ∨ MarkerPending p (stores s).db)) →
      Gone s' ∧ (Quiet s' ∨ MarkerPending p (stores s').db) := fun ⟨hg, hq⟩ =>
    ⟨hL.goneRely s s' hg hr hi, hq.imp (hL.quietRely s s' · hr hi) (·.rely hdb)⟩
  obtain ⟨a, b⟩ := a
  cases a with
  | persisted =>
    cases b with
    | true => exact h
    | false => exact ⟨hL.quietRely s s' h.1 hr hi, hdb.rowIs_persisted h.2⟩
  | compensated =>
    cases b with
    | true => exact htrue h
    | false => exact hfalse h
  | compensationNoop =>
    cases b with
    | true => exact htrue h
    | false => exact hfalse h

theorem ResolveLogic.committedRely (hL : ResolveLogic p L stores Frame Gone Quiet)
    {a : ResolveFailedResult × Bool} (h : ResolveCommitted p Gone (stores s).db s a)
    (hr : L.rely s s') (hi : L.inv s') : ResolveCommitted p Gone (stores s').db s' a := by
  have hdb := hL.rely hr
  have htrue : (Gone s ∧ ((stores s).db.RowIs p.userId p.reservationId .compensated ∨
      ∃ id, id ≠ p.reservationId ∧ (stores s).db.RowIs p.userId id .persisted)) →
      Gone s' ∧ ((stores s').db.RowIs p.userId p.reservationId .compensated ∨
        ∃ id, id ≠ p.reservationId ∧ (stores s').db.RowIs p.userId id .persisted) := by
    rintro ⟨hg, ⟨row, hrow, hid, hst⟩ | ⟨id, hne, hrow⟩⟩
    · refine ⟨hL.goneRely s s' hg hr hi, ?_⟩
      obtain ⟨row', hrow'⟩ := Option.isSome_iff_exists.1
        (hdb.evolves.grows p.userId (by simp [hrow]))
      rcases hdb.renamed rfl _ row row' hrow hst hrow' with rfl | ⟨hp, hne⟩
      · exact .inl ⟨_, hrow', hid, hst⟩
      · exact .inr ⟨row'.id, by rw [← hid]; exact hne, row', hrow', rfl, hp⟩
    · exact ⟨hL.goneRely s s' hg hr hi, .inr ⟨id, hne, hdb.rowIs_persisted hrow⟩⟩
  obtain ⟨a, b⟩ := a
  cases a with
  | persisted =>
    cases b with
    | true => exact h
    | false => exact hdb.rowIs_persisted h
  | compensated =>
    cases b with
    | true => exact htrue h
    | false => exact hL.goneRely s s' h hr hi
  | compensationNoop =>
    cases b with
    | true => exact htrue h
    | false => exact hL.goneRely s s' h hr hi

theorem ResolveLogic.commit (hL : ResolveLogic p L stores Frame Gone Quiet)
    {a : ResolveFailedResult × Bool} (hi : L.inv s) (hf : Frame s)
    (h : ResolveWork p Gone Quiet (stores s).db s a) {r : Except Failure Unit}
    (hstep : L.step (.sql 0 .commit) s r s')
    (he : (stores s).db.exec 0 .commit = some (.ok (), (stores s').db)) :
    ResolveCommitted p Gone (stores s').db s' a := by
  have htrue : (Quiet s ∧ (stores s).db.HoldsRow 0 p.userId ∧ (stores s).db.pending 0 = none ∧
      (stores s).db.RowIs p.userId p.reservationId .compensated) →
      Gone s' ∧ ((stores s').db.RowIs p.userId p.reservationId .compensated ∨
        ∃ id, id ≠ p.reservationId ∧ (stores s').db.RowIs p.userId id .persisted) := by
    rintro ⟨-, -, hw, hrow⟩
    refine ⟨hL.goneSql s s' .commit r (hL.marked s hi hf hrow) hstep, .inl ((Db.rowIs_congr ?_).2 hrow)⟩
    rcases (hL.inv hi).wf.row?_exec he p.userId with e | ⟨-, w, hw', -⟩
    · exact e
    · rw [hw] at hw'; cases hw'
  obtain ⟨a, b⟩ := a
  cases a with
  | persisted =>
    cases b with
    | true => exact h
    | false =>
      obtain ⟨-, row, hrow, hid, hst⟩ := h
      exact ⟨row, (Db.Evolves.exec (hL.inv hi).wf he).keeps _ row hrow hst, hid, hst⟩
  | compensated =>
    cases b with
    | true => exact htrue h
    | false => exact hL.goneSql s s' .commit r h.1 hstep
  | compensationNoop =>
    cases b with
    | true => exact htrue h
    | false => exact hL.goneSql s s' .commit r h.1 hstep

/-- What client `0` knows inside the transaction of `resolveFailed` once it read that the row of
the user is not the persisted one of the reservation. -/
structure InResolve (p : OrdersQueueJobPayload) (db : Db) (tx : Tx) : Prop where
  begun : db.tx? 0 = some tx
  key : db.Holds 0 p.reservationId
  write : tx.write = none
  row : ¬ db.RowIs p.userId p.reservationId .persisted

theorem InResolve.rely {db db' : Db} {tx : Tx} (h : InResolve p db tx) (hr : Db.Rely 0 db db') :
    InResolve p db' tx := by
  refine ⟨hr.tx.trans h.begun, hr.holds.2 h.key, h.write, ?_⟩
  rintro ⟨row, hrow, hid, hst⟩
  exact h.row ⟨row, hr.keyed _ row hrow (by rw [hid]; exact h.key), hid, hst⟩

/-- A compensation does not touch the database. -/
theorem RepoLogic.compensate_db (hL : RepoLogic L stores c) {saleId u id : String}
    {r : Except Failure CompensateReply} (h : L.step (.compensate saleId u id) s r s') :
    (stores s').db = (stores s).db := by
  obtain ⟨fault, hf⟩ := hL.step h
  rcases Stores.performWith_cases hf with ⟨r', hp, -⟩ | ⟨-, hs, -⟩
  · rw [← (Prod.mk.inj (Option.some.inj hp)).2]
    rfl
  · rw [hs]

/-- The compensation inside the transaction, with whatever else is known before it. -/
theorem wp_compensateOpen (hL : ResolveLogic p L stores Frame Gone Quiet) {tx : Tx} {α : Type}
    {f : CompensateReply → WorkerM α} {Q : Except Failure α → S → Prop} (P : S → Prop)
    (hP : ∀ s s', P s → InResolve p (stores s).db tx → L.rely s s' → L.inv s' → P s') (hf : Frame s)
    (hin : InResolve p (stores s).db tx) (hp : P s) (herr : ∀ e s, Frame s → Q (.error e) s)
    (hok : ∀ a s s', L.inv s → Frame s → P s → InResolve p (stores s).db tx →
      L.step (.compensate p.saleId p.userId p.reservationId) s (.ok a) s' → L.inv s' → Frame s' →
      (stores s').db = (stores s).db → Gone s' → (f a).wp L Q s') :
    ((Store.compensate p.saleId p.userId p.reservationId).bind f).wp L Q s := by
  have hstable : ∀ s s', (Frame s ∧ InResolve p (stores s).db tx ∧ P s) →
      L.rely s s' → L.inv s' → Frame s' ∧ InResolve p (stores s').db tx ∧ P s' :=
    fun s s' h hr hi => ⟨hL.frameRely s s' h.1 hr hi, h.2.1.rely (hL.rely hr),
      hP s s' h.2.2 h.2.1 hr hi⟩
  refine wp_bind (wp_bind (wp_ofExcept fun s hr hi => ?_))
  have hs := hstable _ s ⟨hf, hin, hp⟩ hr hi
  cases assertSaleId p.saleId with
  | error e => exact herr e s hs.1
  | ok _ =>
    refine wp_call _ hs hstable fun s hi ⟨hf, hin, hp⟩ =>
      ⟨hL.compOpen s hi hf hin.key hin.row, fun r s' hstep hi' s'' hr hi'' => ?_⟩
    have hf' := hL.frameComp s s' r hi hf hstep hi'
    cases r with
    | error e => exact herr e s'' (hL.frameRely s' s'' hf' hr hi'')
    | ok a =>
      exact Prog.wp_rely (hok a s s' hi hf hp hin hstep hi' hf' (hL.compensate_db hstep)
        (hL.gone s s' a hi hf hstep hi')) hr

theorem resolveWork_result (a : CompensateReply) :
    ResolveWork p Gone Quiet (stores s).db s (a.result, false) ↔
      Gone s ∧ (Quiet s ∨ MarkerPending p (stores s).db) := by
  unfold CompensateReply.result
  split_ifs
  · rfl
  · rfl

theorem wp_resolveFailedWork (hL : ResolveLogic p L stores Frame Gone Quiet) (hi : L.inv s)
    (hf : Frame s) (htx : (stores s).db.tx? 0 = some .start) :
    (resolveFailedWork 0 p (Store.compensate p.saleId p.userId p.reservationId)).wp L
      (Prog.post (fun a s => Frame s ∧ ResolveWork p Gone Quiet (stores s).db s a)
        fun _ => Frame) s := by
  have hq := hL.quietStart s hi htx
  -- the advisory lock
  refine wp_call_bind (fun s => Frame s ∧ Quiet s ∧ (stores s).db.tx? 0 = some .start) ⟨hf, hq, htx⟩
    (fun s s' h hr hi => ⟨hL.frameRely s s' h.1 hr hi, hL.quietRely s s' h.2.1 hr hi,
      (hL.rely hr).tx.trans h.2.2⟩) ?_
  rintro s hi ⟨hf, hq, htx⟩
  refine ⟨hL.sqlPre s _ hi hf .lockReservation trivial (by simp) (by simp),
    fun r s' hstep hi' => ?_⟩
  have hf' := hL.frameSql s s' _ r hf hstep
  cases r with
  | error e => exact fun s'' hr hi'' => hL.frameRely s' s'' hf' hr hi''
  | ok _ =>
  have hlock : ∃ tx, (stores s').db.tx? 0 = some tx ∧ (stores s').db.Holds 0 p.reservationId ∧
      tx.write = none := by
    rcases hL.sql hstep with ⟨r', he, hr' | hr'⟩ | ⟨h, -⟩
    · subst hr'
      rcases Db.exec_lockReservation he with ⟨h, -⟩ | ⟨t, ht, -, -, e⟩
      · cases h
      · obtain rfl := Option.some.inj (htx.symm.trans ht)
        rw [e]
        exact ⟨_, Db.tx?_setTx_self, ⟨_, Db.tx?_setTx_self, by simp⟩, rfl⟩
    · cases hr'
    · cases h
  obtain ⟨tx, htx', hkey, hw⟩ := hlock
  -- the row
  refine wp_call_bind (fun s => Frame s ∧ Quiet s ∧ (stores s).db.tx? 0 = some tx ∧
      (stores s).db.Holds 0 p.reservationId) ⟨hf', hL.quietSql s s' _ _ hq hstep, htx', hkey⟩
    (fun s s' h hr hi => ⟨hL.frameRely s s' h.1 hr hi, hL.quietRely s s' h.2.1 hr hi,
      (hL.rely hr).tx.trans h.2.2.1, (hL.rely hr).holds.2 h.2.2.2⟩) ?_
  rintro s hi ⟨hf, hq, htx, hkey⟩
  refine ⟨hL.sqlPre s _ hi hf .selectUserForUpdate trivial (by simp) (by simp),
    fun r s' hstep hi' => ?_⟩
  have hf' := hL.frameSql s s' _ r hf hstep
  have hq' := hL.quietSql s s' _ r hq hstep
  cases r with
  | error e => exact fun s'' hr hi'' => hL.frameRely s' s'' hf' hr hi''
  | ok current =>
  rcases hL.sql hstep with ⟨r', he, hr' | hr'⟩ | ⟨h, -⟩
  rotate_left
  · cases hr'
  · cases h
  subst hr'
  have hferr : ∀ e s, Frame s → Prog.post (fun a s => Frame s ∧ ResolveWork p Gone Quiet
      (stores s).db s a) (fun (_ : Failure) => Frame) (.error e) s := fun _ _ h => h
  rcases Db.exec_selectUserForUpdate he with ⟨h, -⟩ | ⟨h, hnone, e⟩ | ⟨t, row, ht, hrow, h, -, e⟩
  · cases h
  · obtain rfl : current = none := by simpa using h
    have hin : InResolve p (stores s').db tx := by
      rw [e]
      exact ⟨htx, hkey, hw, fun ⟨row, hrow, _⟩ => by rw [hnone] at hrow; cases hrow⟩
    refine wp_compensateOpen hL (fun _ => True) (fun _ _ _ _ _ _ => trivial) hf' hin trivial
      hferr ?_
    intro a _ s _ _ _ hin _ hi hf hdb hg
    rw [← hdb] at hin
    -- the marker of a user without a row
    refine wp_call_bind (fun s => Frame s ∧ InResolve p (stores s).db tx ∧ Gone s) ⟨hf, hin, hg⟩
      (fun s s' h hr hi => ⟨hL.frameRely s s' h.1 hr hi, h.2.1.rely (hL.rely hr),
        hL.goneRely s s' h.2.2 hr hi⟩) ?_
    rintro s hi ⟨hf, hin, hg⟩
    refine ⟨hL.sqlPre s _ hi hf .insertMarker ⟨rfl, by rw [hL.canonical]; exact hin.key⟩
      (fun _ => hg) (by simp), fun r s' hstep hi' => ?_⟩
    have hf' := hL.frameSql s s' _ r hf hstep
    cases r with
    | error e => exact fun s'' hr hi'' => hL.frameRely s' s'' hf' hr hi''
    | ok _ =>
      intro s'' hr hi''
      have hmark : MarkerPending p (stores s').db := by
        rcases hL.sql hstep with ⟨r', he, hr' | hr'⟩ | ⟨h, -⟩
        · subst hr'
          rcases Db.exec_insertMarker he with ⟨h, -⟩ | ⟨t, -, -, -, -, -, -, e⟩
          · cases h
          · exact ⟨.insert (p.toRow .compensated), by rw [e]; simp [Db.pending], rfl⟩
        · cases hr'
        · cases h
      exact ⟨hL.frameRely s' s'' hf' hr hi'', (resolveWork_result a).2
        ⟨hL.goneRely s' s'' (hL.goneSql s s' _ _ hg hstep) hr hi'', .inr (hmark.rely (hL.rely hr))⟩⟩
  · obtain rfl : current = some (row.id, row.status) := by simpa using h
    obtain rfl := Option.some.inj (htx.symm.trans ht)
    have hrow' : (stores s').db.RowIs p.userId row.id row.status :=
      ⟨row, by rw [e]; exact hrow, rfl, rfl⟩
    have hlock : (stores s').db.HoldsRow 0 p.userId :=
      ⟨_, by rw [e]; exact Db.tx?_setTx_self, by simp⟩
    have hpend : (stores s').db.pending 0 = none := by rw [e]; simp [Db.pending, hw]
    dsimp only [Prog.post]
    by_cases hid : row.id = p.reservationId
    · rw [if_pos hid]
      rw [hid] at hrow'
      intro s'' hr hi''
      refine ⟨hL.frameRely s' s'' hf' hr hi'', ?_⟩
      cases hst : row.status with
      | persisted =>
        rw [hst] at hrow'
        exact hL.workRely (a := (.persisted, false)) ⟨hq', hrow'⟩ hr hi''
      | compensated =>
        rw [hst] at hrow'
        exact hL.workRely (a := (.compensationNoop, true)) ⟨hq', hlock, hpend, hrow'⟩ hr hi''
    · rw [if_neg hid]
      have hin : InResolve p (stores s').db { tx with rows := p.userId :: tx.rows } := by
        obtain ⟨t, ht, hk⟩ := hkey
        obtain rfl := Option.some.inj (htx.symm.trans ht)
        refine ⟨by rw [e]; exact Db.tx?_setTx_self, by rw [e]; exact ⟨_, Db.tx?_setTx_self, hk⟩, hw,
          fun h => hid (hrow'.inj h).1⟩
      -- the row is locked, so what was read of it stays
      have hrowRely : ∀ s s', (stores s).db.RowIs p.userId row.id row.status →
          InResolve p (stores s).db { tx with rows := p.userId :: tx.rows } → L.rely s s' →
          (stores s').db.RowIs p.userId row.id row.status := fun s s' h hin hr =>
        (Db.rowIs_congr ((hL.rely hr).locked _ ⟨_, hin.begun, by simp⟩)).2 h
      refine wp_compensateOpen hL
        (fun s => Quiet s ∧ (stores s).db.RowIs p.userId row.id row.status)
        (fun s s' h hin hr hi => ⟨hL.quietRely s s' h.1 hr hi, hrowRely s s' h.2 hin hr⟩) hf' hin
        ⟨hq', hrow'⟩ hferr ?_
      rintro a s s' hi hf ⟨hq, hrow⟩ hin hstep hi' hf' hdb hg
      cases hst : row.status with
      | persisted =>
        rw [if_neg (by simp)]
        rw [hst] at hrow
        have hq' := hL.quietComp s s' a row.id hi hf hq hid hrow hstep hi'
        intro s'' hr hi''
        exact ⟨hL.frameRely s' s'' hf' hr hi'', (resolveWork_result a).2
          ⟨hL.goneRely s' s'' hg hr hi'', .inl (hL.quietRely s' s'' hq' hr hi'')⟩⟩
      | compensated =>
        rw [if_pos rfl]
        rw [← hdb] at hin
        -- the marker in place of an older one
        refine wp_call_bind (fun s => Frame s ∧ Gone s ∧
            InResolve p (stores s).db { tx with rows := p.userId :: tx.rows }) ⟨hf', hg, hin⟩
          (fun s s' h hr hi => ⟨hL.frameRely s s' h.1 hr hi, hL.goneRely s s' h.2.1 hr hi,
            h.2.2.rely (hL.rely hr)⟩) ?_
        rintro s hi ⟨hf, hg, hin⟩
        refine ⟨hL.sqlPre s _ hi hf (.updateMarker row.id) ⟨rfl, by rw [hL.canonical]; exact hin.key,
          by rw [hL.canonical]; exact hid⟩ (fun _ => hg) (by simp), fun r s' hstep hi' => ?_⟩
        have hf' := hL.frameSql s s' _ r hf hstep
        cases r with
        | error e => exact fun s'' hr hi'' => hL.frameRely s' s'' hf' hr hi''
        | ok n =>
          rcases hL.sql hstep with ⟨r', he, hr' | hr'⟩ | ⟨h, -⟩
          · subst hr'
            refine wp_throwIf (fun _ s'' hr hi'' => hL.frameRely s' s'' hf' hr hi'') fun hn => ?_
            intro s'' hr hi''
            have hmark : MarkerPending p (stores s').db := by
              rcases Db.exec_updateMarker he with ⟨h0, -⟩ | ⟨t, old, -, -, -, -, -, -, -, -, -, e⟩
              · have h1 : n = 1 := not_not.1 hn
                simp [h1] at h0
              · exact ⟨.update (p.toRow .compensated), by rw [e]; simp [Db.pending], rfl⟩
            exact ⟨hL.frameRely s' s'' hf' hr hi'', (resolveWork_result a).2
              ⟨hL.goneRely s' s'' (hL.goneSql s s' _ _ hg hstep) hr hi'',
                .inr (hmark.rely (hL.rely hr))⟩⟩
          · cases hr'
          · cases h

/-- What `resolveFailed` leaves when it returns. -/
def ResolveDone (p : OrdersQueueJobPayload) (Gone : S → Prop) (db : Db) (s : S) :
    ResolveFailedResult → Prop
  | .persisted => db.RowIs p.userId p.reservationId .persisted
  | _ => Gone s

/-- The compensation that repeats a committed marker's, outside the transaction. -/
theorem wp_compensateClosed (hL : ResolveLogic p L stores Frame Gone Quiet)
    {a : ResolveFailedResult} (hf : Frame s) (htx : (stores s).db.tx? 0 = none)
    (hcom : ResolveCommitted p Gone (stores s).db s (a, true)) :
    Prog.wp L (do
      let _ ← Store.compensate p.saleId p.userId p.reservationId
      return a : WorkerM ResolveFailedResult)
      (Prog.post (fun a s => Frame s ∧ (stores s).db.tx? 0 = none ∧
          ResolveDone p Gone (stores s).db s a)
        fun _ s => Frame s ∧ (stores s).db.tx? 0 = none) s := by
  have hstable : ∀ s s', (Frame s ∧ (stores s).db.tx? 0 = none ∧
      ResolveCommitted p Gone (stores s).db s (a, true)) → L.rely s s' → L.inv s' →
      Frame s' ∧ (stores s').db.tx? 0 = none ∧
        ResolveCommitted p Gone (stores s').db s' (a, true) := fun s s' h hr hi =>
    ⟨hL.frameRely s s' h.1 hr hi, (hL.rely hr).tx.trans h.2.1, hL.committedRely h.2.2 hr hi⟩
  have hne : a ≠ .persisted := by
    rintro rfl
    exact hcom
  have hdone : ∀ s, Gone s → ResolveDone p Gone (stores s).db s a := by
    intro s hg
    cases a with
    | persisted => exact absurd rfl hne
    | compensated => exact hg
    | compensationNoop => exact hg
  refine wp_bind (wp_bind (wp_ofExcept fun s hr hi => ?_))
  have hs := hstable _ s ⟨hf, htx, hcom⟩ hr hi
  cases assertSaleId p.saleId with
  | error e => exact ⟨hs.1, hs.2.1⟩
  | ok _ =>
    refine wp_call _ hs hstable fun s hi ⟨hf, htx, hcom⟩ => ?_
    have hcom' : Gone s ∧ ¬ (stores s).db.RowIs p.userId p.reservationId .persisted := by
      have hrow : Gone s ∧ ((stores s).db.RowIs p.userId p.reservationId .compensated ∨
          ∃ id, id ≠ p.reservationId ∧ (stores s).db.RowIs p.userId id .persisted) := by
        cases a with
        | persisted => exact absurd rfl hne
        | compensated => exact hcom
        | compensationNoop => exact hcom
      refine ⟨hrow.1, fun hp => ?_⟩
      rcases hrow.2 with h | ⟨id, hid, h⟩
      · cases (h.inj hp).2
      · exact hid (h.inj hp).1
    refine ⟨hL.compClosed s hi hf hcom'.1 hcom'.2, fun r s' hstep hi' s'' hr hi'' => ?_⟩
    have hf'' := hL.frameRely s' s'' (hL.frameComp s s' r hi hf hstep hi') hr hi''
    have htx'' : (stores s'').db.tx? 0 = none := by
      rw [(hL.rely hr).tx, hL.compensate_db hstep]
      exact htx
    cases r with
    | error e => exact ⟨hf'', htx''⟩
    | ok reply =>
      intro t ht hit
      have hg := hL.goneRely s' t (hL.gone s s' reply hi hf hstep hi') (L.trans hr ht) hit
      exact ⟨hL.frameRely s'' t hf'' ht hit, (hL.rely ht).tx.trans htx'', hdone t hg⟩

/-- **`resolveFailed`.** -/
theorem wp_resolveFailed (hL : ResolveLogic p L stores Frame Gone Quiet) (hf : Frame s)
    (htx : (stores s).db.tx? 0 = none) :
    (resolveFailed 0 p (Store.compensate p.saleId p.userId p.reservationId)).wp L
      (Prog.post (fun a s => Frame s ∧ (stores s).db.tx? 0 = none ∧
          ResolveDone p Gone (stores s).db s a)
        fun _ s => Frame s ∧ (stores s).db.tx? 0 = none) s := by
  refine wp_bind ?_
  refine wp_transaction Frame (fun a s => Frame s ∧ ResolveWork p Gone Quiet (stores s).db s a)
    hL.toRepoLogic ?_ hL.frameRely ?_ ?_ ?_ ?_ ?_ hf htx
  · intro s hi hf
    exact ⟨hL.sqlPre s _ hi hf .begin trivial (by simp) (by simp),
      hL.sqlPre s _ hi hf .rollback trivial (by simp) (by simp)⟩
  · exact fun s s' stm r _ _ hf hstep _ => hL.frameSql s s' stm r hf hstep
  · exact fun s hi hf htx => wp_resolveFailedWork hL hi hf htx
  · exact fun a s s' h hr hi => ⟨hL.frameRely s s' h.1 hr hi, hL.workRely h.2 hr hi⟩
  · rintro ⟨a, b⟩ s hi ⟨hf, hwork⟩
    have hpre : Quiet s ∨ MarkerPending p (stores s).db := by
      cases a with
      | persisted =>
        cases b with
        | true => exact hwork.elim
        | false => exact .inl hwork.1
      | compensated =>
        cases b with
        | true => exact .inl hwork.1
        | false => exact hwork.2
      | compensationNoop =>
        cases b with
        | true => exact .inl hwork.1
        | false => exact hwork.2
    refine ⟨hL.sqlPre s _ hi hf .commit trivial (by simp) fun _ => hpre, fun r s' hstep hi' => ?_⟩
    have hf' := hL.frameSql s s' _ r hf hstep
    cases r with
    | error e => exact hf'
    | ok _ =>
      intro s'' hr hi''
      rcases hL.sql hstep with ⟨r', he, hr' | hr'⟩ | ⟨h, -⟩
      rotate_left
      · cases hr'
      · cases h
      subst hr'
      have hnone : (stores s').db.tx? 0 = none := by
        obtain ⟨-, ⟨hn, e⟩ | ⟨tx, -, e⟩⟩ := Db.exec_commit he
        · rw [e]; exact hn
        · rw [e]; simp
      have hcom := hL.committedRely (hL.commit hi hf hwork hstep he) hr hi''
      have hf'' := hL.frameRely s' s'' hf' hr hi''
      have hnone'' : (stores s'').db.tx? 0 = none := (hL.rely hr).tx.trans hnone
      cases b with
      | false =>
        intro t ht hit
        have hcom := hL.committedRely hcom ht hit
        refine ⟨hL.frameRely s'' t hf'' ht hit, (hL.rely ht).tx.trans hnone'', ?_⟩
        cases a with
        | persisted => exact hcom
        | compensated => exact hcom
        | compensationNoop => exact hcom
      | true => exact wp_compensateClosed hL hf'' hnone'' hcom
  · exact fun e s _ hf hn => ⟨hf, hn⟩

end Resolve

end FlashSale
