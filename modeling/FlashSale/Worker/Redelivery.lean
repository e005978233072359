import FlashSale.Worker.OrderRepository
import FlashSale.Worker.Locks

/-!
# Redeliveries

`persist` and `resolveFailed` on their own, with no other transaction open. Whether a call finds its
own order is decided by comparing the text of the reservation id in the payload with the text
Postgres gives back for the `uuid` column, so a redelivery is idempotent exactly for ids in canonical
lower case.
-/

namespace FlashSale

/-! ## One transaction at a time -/

namespace Db

variable {db : Db} {c : ℕ} {tx t : Tx}

theorem setTx_setTx : (db.setTx c tx).setTx c t = db.setTx c t := by
  unfold setTx
  dsimp only
  rw [AList.insert_insert]

/-- The end of the only transaction. -/
theorem endTx_setTx (h : db.txs = ∅) : (db.setTx c tx).endTx c = db := by
  obtain ⟨orders, sales, txs, hashtext⟩ := db
  subst h
  unfold endTx setTx
  dsimp only
  congr 1
  apply AList.ext
  rw [AList.insert_empty]
  exact List.kerase_cons_eq rfl

theorem others_setTx (h : db.txs = ∅) (p : Tx → Bool) : (db.setTx c tx).others c p = false := by
  rw [others_eq_false]
  intro c' t hne ht
  rw [tx?_setTx_of_ne hne] at ht
  unfold tx? at ht
  rw [h] at ht
  cases ht

theorem tx?_of_empty (h : db.txs = ∅) (c : ℕ) : db.tx? c = none := by
  unfold tx?
  rw [h]
  rfl

variable {p : OrdersQueueJobPayload} {row : DurableOrder}

theorem lockReservation_alone (h : db.txs = ∅) (tx : Tx) (id : String) :
    (db.setTx c tx).exec c (.lockReservation id) =
      some (.ok (), db.setTx c { tx with advisory := db.hashtext id :: tx.advisory }) := by
  unfold exec
  rw [tx?_setTx_self]
  dsimp only
  rw [others_setTx h, setTx_setTx]
  rfl

theorem selectUserForUpdate_alone (h : db.txs = ∅) (tx : Tx)
    (hrow : db.row? p.userId = some row) :
    (db.setTx c tx).exec c (.selectUserForUpdate p.userId) =
      some (.ok (some (row.id, row.status)), db.setTx c { tx with rows := p.userId :: tx.rows }) := by
  unfold exec
  rw [tx?_setTx_self]
  dsimp only
  rw [row?_setTx, hrow]
  dsimp only
  rw [others_setTx h, setTx_setTx]
  rfl

theorem insertPersisted_alone (h : db.txs = ∅) (tx : Tx) (hp : p.rowAllowed = true)
    (hrow : db.row? p.userId = some row) :
    (db.setTx c tx).exec c (.insertPersisted p) = some (.ok 0, db.setTx c tx) := by
  unfold exec
  rw [tx?_setTx_self]
  dsimp only
  rw [hp, others_setTx h, row?_setTx, hrow]
  rfl

theorem commit_alone (h : db.txs = ∅) {tx : Tx} (hw : tx.write = none) :
    (db.setTx c tx).exec c .commit = some (.ok (), db) := by
  unfold exec
  rw [tx?_setTx_self]
  dsimp only
  rw [hw]
  exact congrArg (fun db => some (Except.ok (), db)) (endTx_setTx h)

end Db

section

variable {α β : Type} {s s' : Stores} {c : ℕ}

theorem answer_sql {stm : Statement} {r : Except Failure stm.Res} {db : Db}
    (h : s.db.exec c stm = some (r, db)) :
    Stores.answer (.sql c stm) s = some (r, { s with db }) := by
  show (s.db.exec c stm).map _ = _
  rw [h]
  rfl

theorem run_sql_bind {stm : Statement} {a : stm.Res} {db : Db}
    (h : s.db.exec c stm = some (.ok a, db)) (f : stm.Res → WorkerM β) :
    ((sql c stm).bind f).run Stores.answer s = (f a).run Stores.answer { s with db } :=
  Prog.run_call_bind (answer_sql h) f

theorem run_sql_bind_error {stm : Statement} {e : Failure} {db : Db}
    (h : s.db.exec c stm = some (.error e, db)) (f : stm.Res → WorkerM β) :
    ((sql c stm).bind f).run Stores.answer s = some (.error e, { s with db }) :=
  Prog.run_bind_of_error (Prog.run_call (answer_sql h)) f

/-- A transaction whose work returns. -/
theorem run_transaction_ok {work : WorkerM α} {a : α} {db : Db} {t : Stores}
    (h : s.db.tx? c = none)
    (hw : work.run Stores.answer { s with db := s.db.setTx c .start } = some (.ok a, t))
    (hc : t.db.exec c .commit = some (.ok (), db)) :
    (transaction c work).run Stores.answer s = some (.ok a, { t with db }) := by
  have hb : s.db.exec c .begin = some (.ok (), s.db.setTx c .start) := by
    unfold Db.exec
    rw [h]
  unfold transaction
  show Prog.run _ (Prog.catchWith _ _) s = _
  rw [Prog.run_catchWith]
  show ((Prog.bind _ _).run Stores.answer s).bind _ = _
  rw [run_sql_bind hb]
  show ((Prog.bind _ _).run Stores.answer _).bind _ = _
  rw [Prog.run_bind_of_ok hw]
  show ((Prog.bind _ _).run Stores.answer _).bind _ = _
  rw [run_sql_bind hc]
  rfl

/-- A transaction whose work throws. -/
theorem run_transaction_error {work : WorkerM α} {e : Failure} (h : s.db.tx? c = none)
    (hw : work.run Stores.answer { s with db := s.db.setTx c .start } = some (.error e, s')) :
    (transaction c work).run Stores.answer s =
      some (.error e, { s' with db := s'.db.endTx c }) := by
  have hb : s.db.exec c .begin = some (.ok (), s.db.setTx c .start) := by
    unfold Db.exec
    rw [h]
  unfold transaction
  show Prog.run _ (Prog.catchWith _ _) s = _
  rw [Prog.run_catchWith]
  show ((Prog.bind _ _).run Stores.answer s).bind _ = _
  rw [run_sql_bind hb]
  show ((Prog.bind _ _).run Stores.answer _).bind _ = _
  rw [Prog.run_bind_of_error hw]
  rfl

end

/-! ## The calls on their own -/

section Alone

variable {s : Stores} {c : ℕ} {p : OrdersQueueJobPayload} {row : DurableOrder}

/-- The stores while `c` alone is in a transaction. -/
abbrev Stores.within (s : Stores) (c : ℕ) (tx : Tx) : Stores := { s with db := s.db.setTx c tx }

/-- The statement that inserts the row, for a user without one. -/
theorem insertPersisted_first (h : s.db.txs = ∅) (hp : p.rowAllowed = true)
    (hrow : s.db.row? p.userId = none) (tx : Tx) (hw : tx.write = none) :
    (s.db.setTx c tx).exec c (.insertPersisted p) =
      if s.db.idTaken (p.toRow .persisted) || !s.db.saleExists p.saleId then
        some (.error .upstream, s.db.setTx c tx)
      else some (.ok (1 : ℕ),
        s.db.setTx c { tx with write := some (.insert (p.toRow .persisted)) }) := by
  have hinsert : (s.db.setTx c tx).exec c (.insertPersisted p) =
      (s.db.setTx c tx).write c tx (.insert (p.toRow .persisted)) (1 : ℕ) := by
    unfold Db.exec
    rw [Db.tx?_setTx_self]
    dsimp only
    rw [hp, Db.others_setTx h, Db.row?_setTx, hrow]
    rfl
  rw [hinsert]
  unfold Db.write
  rw [Db.others_setTx h, if_neg (by decide), Db.setTx_setTx, hw, Option.isSome_none, Bool.or_false]
  rfl

/-- The first delivery inserts the row, unless a key refuses it. -/
theorem run_persist_new (h : s.db.txs = ∅) (hp : p.rowAllowed = true)
    (hrow : s.db.row? p.userId = none) (hid : s.db.idTaken (p.toRow .persisted) = false)
    (hsale : s.db.saleExists p.saleId = true) (c : ℕ) :
    (persist c p).run Stores.answer s =
      some (.ok .persisted, { s with db := s.db.apply (.insert (p.toRow .persisted)) }) := by
  have hinsert := insertPersisted_first (c := c) h hp hrow
    ⟨[s.db.hashtext p.reservationId], [], none⟩ rfl
  rw [hid, hsale, if_neg (by decide)] at hinsert
  have hwork : (persistWork c p).run Stores.answer (s.within c .start) =
      some (.ok .persisted, s.within c ⟨[s.db.hashtext p.reservationId], [],
        some (.insert (p.toRow .persisted))⟩) := by
    unfold persistWork
    refine (run_sql_bind (a := c) rfl _).trans ?_
    refine (run_sql_bind (Db.lockReservation_alone h .start p.reservationId) _).trans ?_
    exact run_sql_bind (s := s.within c ⟨[s.db.hashtext p.reservationId], [], none⟩) hinsert _
  have hcommit : (s.db.setTx c ⟨[s.db.hashtext p.reservationId], [],
      some (.insert (p.toRow .persisted))⟩).exec c .commit =
        some (.ok (), s.db.apply (.insert (p.toRow .persisted))) := by
    unfold Db.exec
    rw [Db.tx?_setTx_self]
    have hend (tx : Tx) : ((s.db.apply (.insert (p.toRow .persisted))).setTx c tx).endTx c =
        s.db.apply (.insert (p.toRow .persisted)) := Db.endTx_setTx h
    exact congrArg (fun db => some (Except.ok (), db)) (hend _)
  exact run_transaction_ok (t := s.within c ⟨[s.db.hashtext p.reservationId], [],
    some (.insert (p.toRow .persisted))⟩) (Db.tx?_of_empty h c) hwork hcommit

/-- The first delivery: a run that returns `persisted` has inserted the row and nothing else. -/
theorem run_persist_first (h : s.db.txs = ∅) (hp : p.rowAllowed = true)
    (hrow : s.db.row? p.userId = none) {c : ℕ} {s' : Stores}
    (hrun : (persist c p).run Stores.answer s = some (.ok .persisted, s')) :
    s' = { s with db := s.db.apply (.insert (p.toRow .persisted)) } := by
  by_cases hkeys : (s.db.idTaken (p.toRow .persisted) || !s.db.saleExists p.saleId) = true
  · -- a key refuses the row: the call does not return
    have hinsert := insertPersisted_first (c := c) h hp hrow
      ⟨[s.db.hashtext p.reservationId], [], none⟩ rfl
    rw [if_pos hkeys] at hinsert
    have hwork : (persistWork c p).run Stores.answer (s.within c .start) =
        some (.error .upstream, s.within c ⟨[s.db.hashtext p.reservationId], [], none⟩) := by
      unfold persistWork
      refine (run_sql_bind (a := c) rfl _).trans ?_
      refine (run_sql_bind (Db.lockReservation_alone h .start p.reservationId) _).trans ?_
      exact run_sql_bind_error hinsert _
    rw [persist, run_transaction_error (Db.tx?_of_empty h c) hwork] at hrun
    cases hrun
  · simp only [Bool.or_eq_true, Bool.not_eq_true', not_or, Bool.not_eq_true,
      Bool.not_eq_false] at hkeys
    rw [run_persist_new h hp hrow hkeys.1 hkeys.2 c] at hrun
    exact (Prod.mk.inj (Option.some.inj hrun)).2.symm

/-- A redelivery that finds a row of its user with the id of its payload. -/
theorem run_persist_same (h : s.db.txs = ∅) (hp : p.rowAllowed = true)
    (hrow : s.db.row? p.userId = some row) (hid : row.id = p.reservationId) (c : ℕ) :
    (persist c p).run Stores.answer s =
      some (.ok (if row.status = .persisted then .idempotent else .compensated), s) := by
  refine run_transaction_ok (t := s.within c ⟨[s.db.hashtext p.reservationId], [p.userId], none⟩)
    (Db.tx?_of_empty h c) ?_ (Db.commit_alone h rfl)
  unfold persistWork
  refine (run_sql_bind (a := c) rfl _).trans ?_
  refine (run_sql_bind (Db.lockReservation_alone h .start p.reservationId) _).trans ?_
  refine (run_sql_bind (Db.insertPersisted_alone h _ hp hrow) _).trans ?_
  rw [if_neg Nat.zero_ne_one]
  refine (run_sql_bind (Db.selectUserForUpdate_alone h _ hrow) _).trans ?_
  dsimp only
  rw [if_pos hid]
  rfl

/-- A redelivery that finds a persisted row of its user with another id. -/
theorem run_persist_other (h : s.db.txs = ∅) (hp : p.rowAllowed = true)
    (hrow : s.db.row? p.userId = some row) (hid : row.id ≠ p.reservationId)
    (hst : row.status = .persisted) (c : ℕ) :
    (persist c p).run Stores.answer s =
      some (.error (.persistenceConflict
        ("permanent persistence conflict for user " ++ p.userId)), s) := by
  have hwork : (persistWork c p).run Stores.answer { s with db := s.db.setTx c .start } =
      some (.error (.persistenceConflict ("permanent persistence conflict for user " ++ p.userId)),
        s.within c ⟨[s.db.hashtext p.reservationId], [p.userId], none⟩) := ?_
  · rw [persist, run_transaction_error (Db.tx?_of_empty h c) hwork]
    exact congrArg (fun db => some (_, { s with db })) (Db.endTx_setTx h)
  unfold persistWork
  refine (run_sql_bind (a := c) rfl _).trans ?_
  refine (run_sql_bind (Db.lockReservation_alone h .start p.reservationId) _).trans ?_
  refine (run_sql_bind (Db.insertPersisted_alone h _ hp hrow) _).trans ?_
  rw [if_neg Nat.zero_ne_one]
  refine (run_sql_bind (Db.selectUserForUpdate_alone h _ hrow) _).trans ?_
  dsimp only
  rw [if_neg hid, hst]
  rfl

/-- A resolution that finds its order persisted. -/
theorem run_resolveFailed_persisted (h : s.db.txs = ∅) (hrow : s.db.row? p.userId = some row)
    (hid : row.id = p.reservationId) (hst : row.status = .persisted) (c : ℕ)
    (compensate : WorkerM CompensateReply) :
    (resolveFailed c p compensate).run Stores.answer s = some (.ok .persisted, s) := by
  have hend : (transaction c (resolveFailedWork c p compensate)).run Stores.answer s =
      some (.ok (.persisted, false), s) := by
    refine run_transaction_ok
      (t := s.within c ⟨[s.db.hashtext p.reservationId], [p.userId], none⟩)
      (Db.tx?_of_empty h c) ?_ (Db.commit_alone h rfl)
    unfold resolveFailedWork
    refine (run_sql_bind (Db.lockReservation_alone h .start p.reservationId) _).trans ?_
    refine (run_sql_bind (Db.selectUserForUpdate_alone h _ hrow) _).trans ?_
    dsimp only
    rw [if_pos hid, hst]
    rfl
  unfold resolveFailed
  exact Prog.run_bind_of_ok hend _

end Alone

/-! ## Redeliveries of a persisted order -/

/-- A redelivery leaves the stores as they are and answers `idempotent`, and a resolution answers
`persisted` whatever its compensation would do. -/
def Shielded (p : OrdersQueueJobPayload) (s : Stores) : Prop :=
  (∀ c, (persist c p).run Stores.answer s = some (.ok .idempotent, s)) ∧
    ∀ c compensate, (resolveFailed c p compensate).run Stores.answer s = some (.ok .persisted, s)

/-- **Redeliveries.** Once `persist` has returned `persisted` for a user without a row, its order is
shielded if and only if the id of the payload is in canonical lower case. -/
theorem shielded_iff_canonical (s s' : Stores) (c : ℕ) (value : JsValue)
    (p : OrdersQueueJobPayload) (hvalue : assertOrdersQueueJobPayload value = .ok p)
    (hidle : s.db.txs = ∅) (hrow : s.db.row? p.userId = none)
    (hrun : (persist c p).run Stores.answer s = some (.ok .persisted, s')) :
    Shielded p s' ↔ pgUuid p.reservationId = p.reservationId := by
  have hp := (assertOrdersQueueJobPayload_ok hvalue).1.rowAllowed
  have hs' := run_persist_first hidle hp hrow hrun
  have hidle' : s'.db.txs = ∅ := by
    rw [hs']
    exact hidle
  have hrow' : s'.db.row? p.userId = some (p.toRow .persisted) := by
    rw [hs']
    refine (Db.row?_apply_insert hrow _).trans (if_pos ?_)
    rfl
  constructor
  · intro hshield
    by_contra hne
    have hother := run_persist_other hidle' hp hrow' hne rfl c
    rw [hshield.1 c] at hother
    cases hother
  · intro hcanon
    exact ⟨run_persist_same hidle' hp hrow' hcanon,
      run_resolveFailed_persisted hidle' hrow' hcanon rfl⟩

/-- A sale with its row and no orders. -/
def openSale : Stores where
  sales := fun _ => Sale.empty
  time := ⟨1, 0⟩
  ledgerBucket := fun _ => 0
  buyerBucket := fun _ => 0
  queue := .empty
  db := ⟨[], [⟨"flash-2026", "Aurora", 1, 1000, 2000⟩], ∅, String.length⟩
  failedScanOffset := 0

/-- An order whose reservation id is in upper case. -/
def upperCaseOrder : OrdersQueueJobPayload :=
  ⟨"flash-2026", "alice", "0190AAAA-0000-7000-8000-000000000001", 1500, "req-1"⟩

/-- The stores after the order was persisted. -/
def upperCasePersisted : Stores :=
  { openSale with db := openSale.db.apply (.insert (upperCaseOrder.toRow .persisted)) }

theorem shielded_iff_canonical_upperCase :
    Shielded upperCaseOrder upperCasePersisted ↔
      pgUuid upperCaseOrder.reservationId = upperCaseOrder.reservationId :=
  shielded_iff_canonical openSale upperCasePersisted 1 upperCaseOrder.toJs upperCaseOrder
    (assertOrdersQueueJobPayload_toJs ⟨by decide +kernel, by decide +kernel, by decide +kernel,
      by decide +kernel, by decide +kernel⟩) rfl rfl rfl

/-- The redelivery of the order ends as a permanent conflict. -/
theorem upperCaseOrder_conflict :
    assertOrdersQueueJobPayload upperCaseOrder.toJs = .ok upperCaseOrder ∧
    (persist 1 upperCaseOrder).run Stores.answer openSale =
      some (.ok .persisted, upperCasePersisted) ∧
    (persist 1 upperCaseOrder).run Stores.answer upperCasePersisted =
      some (.error (.persistenceConflict "permanent persistence conflict for user alice"),
        upperCasePersisted) := by
  have hp : upperCaseOrder.Valid := ⟨by decide +kernel, by decide +kernel, by decide +kernel,
    by decide +kernel, by decide +kernel⟩
  exact ⟨assertOrdersQueueJobPayload_toJs hp, rfl, rfl⟩

end FlashSale
