import FlashSale.Shared.Queue
import Mathlib.Data.List.AList
import Mathlib.Data.List.Sort

/-!
# Postgres as the order repository uses it

`Db` is the committed `orders` and `sales` tables beside the open transactions. A statement of a
client runs at once, waits for another transaction (`none`) or fails. What it relies on is modelled:

* `pg_advisory_xact_lock` is exclusive per key and held until the transaction ends;
* `SELECT … FOR UPDATE` and `UPDATE` lock the committed row of a user; an `INSERT` waits for
  another transaction that is writing the same user or the same id;
* a write is visible to others only after `COMMIT`; `ROLLBACK` drops it;
* the unique index on `user_id`, the primary key, the `CHECK` constraints and the foreign key.

Every transaction of the repository writes at most one row, and after a failed statement it only
rolls back.
-/

namespace FlashSale

inductive DurableOrderStatus where
  | persisted
  | compensated
  deriving DecidableEq, Repr

/-- A row of `orders`. `persisted_at` is set exactly for persisted rows and is left out; the column
`created_at` keeps whole milliseconds. -/
structure DurableOrder where
  id : String
  userId : String
  saleId : String
  status : DurableOrderStatus
  createdAtMs : ℕ
  requestId : String
  deriving DecidableEq, Repr

/-- A row of `sales`. -/
structure SaleRow where
  id : String
  name : String
  totalStock : ℤ
  startsAtMs : ℤ
  endsAtMs : ℤ
  deriving DecidableEq, Repr

/-- The canonical text of a UUID. -/
def pgUuid (s : String) : String := String.ofList (s.toList.map Char.toLower)

/-- The pending write of a transaction: a new row, or a new version of the row of its user. -/
inductive Write where
  | insert (row : DurableOrder)
  | update (row : DurableOrder)
  deriving DecidableEq

def Write.row : Write → DurableOrder
  | .insert row => row
  | .update row => row

/-- An open transaction: its advisory keys, the users whose rows it locked, its pending write. -/
structure Tx where
  advisory : List ℕ
  rows : List String
  write : Option Write

def Tx.start : Tx := ⟨[], [], none⟩

/-- The database. `orders` is kept in the order of `user_id`; `hashtext` is `hashtextextended`. -/
structure Db where
  orders : List DurableOrder
  sales : List SaleRow
  txs : AList fun _ : ℕ => Tx
  hashtext : String → ℕ

namespace Db

/-- The committed row of a user. -/
def row? (db : Db) (userId : String) : Option DurableOrder :=
  db.orders.find? fun row => row.userId == userId

/-- Some transaction of another client satisfies `p`. -/
def others (db : Db) (client : ℕ) (p : Tx → Bool) : Bool :=
  db.txs.entries.any fun e => e.1 != client && p e.2

/-- The transaction of a client. -/
def tx? (db : Db) (client : ℕ) : Option Tx := db.txs.lookup client

def setTx (db : Db) (client : ℕ) (tx : Tx) : Db := { db with txs := db.txs.insert client tx }

def endTx (db : Db) (client : ℕ) : Db := { db with txs := db.txs.erase client }

/-- A committed write. -/
def apply (db : Db) : Write → Db
  | .insert row => { db with orders := db.orders.orderedInsert (·.userId ≤ ·.userId) row }
  | .update row =>
    { db with orders := db.orders.map fun old => if old.userId = row.userId then row else old }

end Db

/-! ## Statements -/

/-- The statements of `OrderRepository` inside a transaction. -/
inductive Statement where
  | begin
  | backendPid
  | lockReservation (reservationId : String)
  | insertPersisted (payload : OrdersQueueJobPayload)
  | selectUserForUpdate (userId : String)
  | promoteCompensated (payload : OrdersQueueJobPayload) (currentId : String)
  | insertMarker (payload : OrdersQueueJobPayload)
  | updateMarker (payload : OrdersQueueJobPayload) (currentId : String)
  | commit
  | rollback

/-- What a statement returns: a row count, the selected row, or nothing. -/
@[reducible] def Statement.Res : Statement → Type
  | .backendPid => ℕ
  | .insertPersisted _ => ℕ
  | .selectUserForUpdate _ => Option (String × DurableOrderStatus)
  | .promoteCompensated _ _ => ℕ
  | .updateMarker _ _ => ℕ
  | _ => Unit

/-- The row a payload stands for. -/
def OrdersQueueJobPayload.toRow (p : OrdersQueueJobPayload) (status : DurableOrderStatus) :
    DurableOrder :=
  ⟨pgUuid p.reservationId, p.userId, p.saleId, status, p.reservedAtMs, p.requestId⟩

/-- The text of `id` reads as a UUID and the `CHECK` constraints hold. -/
def OrdersQueueJobPayload.rowAllowed (p : OrdersQueueJobPayload) : Bool :=
  isUuid p.reservationId && decide (3 ≤ p.userId.toList.length ∧ p.userId.toList.length ≤ 64) &&
    decide (1 ≤ p.requestId.toList.length ∧ p.requestId.toList.length ≤ 128)

/-- The constraints of the table admit the row of every valid payload. -/
theorem OrdersQueueJobPayload.Valid.rowAllowed {p : OrdersQueueJobPayload} (h : p.Valid) :
    p.rowAllowed = true := by
  have hreq := h.requestId
  unfold isRequestId at hreq
  simp only [Bool.and_eq_true, decide_eq_true_eq] at hreq
  unfold OrdersQueueJobPayload.rowAllowed
  simp only [Bool.and_eq_true, decide_eq_true_eq]
  exact ⟨⟨h.reservationId, length_of_isUserId h.userId⟩, hreq.1.2, hreq.2⟩

namespace Db

/-- The transaction is writing the row of a user. -/
def writesUser (userId : String) (t : Tx) : Bool := t.write.any (·.row.userId == userId)

/-- The transaction is writing a row with this id. -/
def writesId (id : String) (t : Tx) : Bool := t.write.any (·.row.id == id)

/-- The primary key refuses `row`: another user's committed row has the id. -/
def idTaken (db : Db) (row : DurableOrder) : Bool :=
  db.orders.any fun old => old.id == row.id && old.userId != row.userId

/-- The foreign key of `sale_id`. -/
def saleExists (db : Db) (saleId : String) : Bool := db.sales.any (·.id == saleId)

/-- The end of a writing statement: the foreign key and the primary key, then the write. -/
def write (db : Db) (client : ℕ) (tx : Tx) (w : Write) {α : Type} (result : α) :
    Option (Except Failure α × Db) :=
  if db.others client (writesId w.row.id) then none
  else if db.idTaken w.row || !db.saleExists w.row.saleId || tx.write.isSome then
    some (.error .upstream, db)
  else some (.ok result, db.setTx client { tx with write := some w })

/-- The `UPDATE`s of the repository: guarded by the user, the id read before and the status. -/
def guardedUpdate (db : Db) (client : ℕ) (tx : Tx) (payload : OrdersQueueJobPayload)
    (status : DurableOrderStatus) (currentId : String) : Option (Except Failure ℕ × Db) :=
  match db.row? payload.userId with
  | none => some (.ok 0, db)
  | some old =>
    if old.id ≠ currentId ∨ old.status ≠ .compensated then some (.ok 0, db)
    else if db.others client (fun t => t.rows.contains payload.userId) then none
    else if !payload.rowAllowed then some (.error .upstream, db)
    else
      let tx := { tx with rows := payload.userId :: tx.rows }
      db.write client tx (.update (payload.toRow status)) 1

/-- One statement of a client in its transaction; `none` while it waits. -/
def exec (db : Db) (client : ℕ) : (st : Statement) → Option (Except Failure st.Res × Db)
  | .begin =>
    match db.tx? client with
    | some _ => some (.ok (), db)
    | none => some (.ok (), db.setTx client .start)
  | .rollback => some (.ok (), db.endTx client)
  | .commit =>
    match db.tx? client with
    | none => some (.ok (), db)
    | some tx => some (.ok (), (tx.write.elim db db.apply).endTx client)
  | .backendPid => some (.ok client, db)
  | .lockReservation reservationId =>
    match db.tx? client with
    | none => some (.error .upstream, db)
    | some tx =>
      let key := db.hashtext reservationId
      if db.others client (fun t => t.advisory.contains key) then none
      else some (.ok (), db.setTx client { tx with advisory := key :: tx.advisory })
  | .insertPersisted payload =>
    match db.tx? client with
    | none => some (.error .upstream, db)
    | some tx =>
      if !payload.rowAllowed then some (.error .upstream, db)
      else if db.others client (writesUser payload.userId) then none
      else if (db.row? payload.userId).isSome then some (.ok (0 : ℕ), db)
      else db.write client tx (.insert (payload.toRow .persisted)) (1 : ℕ)
  | .selectUserForUpdate userId =>
    match db.tx? client with
    | none => some (.error .upstream, db)
    | some tx =>
      match db.row? userId with
      | none => some (.ok (none : Option (String × DurableOrderStatus)), db)
      | some old =>
        if db.others client (fun t => t.rows.contains userId) then none
        else some (.ok (some (old.id, old.status)),
          db.setTx client { tx with rows := userId :: tx.rows })
  | .promoteCompensated payload currentId =>
    match db.tx? client with
    | none => some (.error .upstream, db)
    | some tx => db.guardedUpdate client tx payload .persisted currentId
  | .insertMarker payload =>
    match db.tx? client with
    | none => some (.error .upstream, db)
    | some tx =>
      if !payload.rowAllowed then some (.error .upstream, db)
      else if db.others client (writesUser payload.userId) then none
      else if (db.row? payload.userId).isSome then some (.error .upstream, db)
      else db.write client tx (.insert (payload.toRow .compensated)) ()
  | .updateMarker payload currentId =>
    match db.tx? client with
    | none => some (.error .upstream, db)
    | some tx => db.guardedUpdate client tx payload .compensated currentId

/-! ## Lookups -/

variable {db db' : Db} {c c' : ℕ} {tx : Tx} {u : String}

theorem others_eq_false {p : Tx → Bool} : db.others c p = false ↔
    ∀ c' t, c' ≠ c → db.tx? c' = some t → p t = false := by
  unfold others tx?
  rw [List.any_eq_false]
  constructor
  · intro h c' t hne ht
    have := h ⟨c', t⟩ (AList.mem_lookup_iff.1 ht)
    simpa [hne] using this
  · rintro h ⟨c', t⟩ hm
    by_cases hne : c' = c
    · simp [hne]
    · simp [h c' t hne (AList.mem_lookup_iff.2 hm)]

theorem of_not_others {p : Tx → Bool} (h : ¬ db.others c p = true) {t : Tx} (hne : c' ≠ c)
    (ht : db.tx? c' = some t) : p t = false :=
  others_eq_false.1 (Bool.eq_false_of_not_eq_true h) c' t hne ht

@[simp] theorem tx?_setTx_self : (db.setTx c tx).tx? c = some tx := AList.lookup_insert _

theorem tx?_setTx_of_ne (h : c' ≠ c) : (db.setTx c tx).tx? c' = db.tx? c' :=
  AList.lookup_insert_ne h

@[simp] theorem tx?_endTx_self : (db.endTx c).tx? c = none := AList.lookup_erase _ _

theorem tx?_endTx_of_ne (h : c' ≠ c) : (db.endTx c).tx? c' = db.tx? c' := AList.lookup_erase_ne h

@[simp] theorem row?_setTx : (db.setTx c tx).row? u = db.row? u := rfl

@[simp] theorem row?_endTx : (db.endTx c).row? u = db.row? u := rfl

@[simp] theorem hashtext_setTx : (db.setTx c tx).hashtext = db.hashtext := rfl

@[simp] theorem hashtext_endTx : (db.endTx c).hashtext = db.hashtext := rfl

@[simp] theorem tx?_apply (w : Write) : (db.apply w).tx? c = db.tx? c := by cases w <;> rfl

@[simp] theorem hashtext_apply (w : Write) : (db.apply w).hashtext = db.hashtext := by
  cases w <;> rfl

theorem row?_userId {row : DurableOrder} (h : db.row? u = some row) : row.userId = u := by
  have := List.find?_some h
  simpa using this

theorem mem_orders_of_row? {row : DurableOrder} (h : db.row? u = some row) : row ∈ db.orders :=
  List.mem_of_find?_eq_some h

theorem row?_eq_none : db.row? u = none ↔ ∀ row ∈ db.orders, row.userId ≠ u := by
  simp [row?, List.find?_eq_none]

theorem row?_isSome_of_mem {row : DurableOrder} (h : row ∈ db.orders) :
    (db.row? row.userId).isSome := by
  rw [row?, List.find?_isSome]
  exact ⟨row, h, by simp⟩

/-- The row of a user once an inserted row is committed. -/
theorem row?_apply_insert {row : DurableOrder} (h : db.row? row.userId = none) (u : String) :
    (db.apply (.insert row)).row? u = if u = row.userId then some row else db.row? u := by
  have hno : ∀ old ∈ db.orders, old.userId ≠ row.userId := row?_eq_none.1 h
  unfold row? apply
  dsimp only
  generalize db.orders = rows at hno
  induction rows with
  | nil =>
    rw [List.orderedInsert_nil]
    by_cases hu : u = row.userId
    · subst hu; simp
    · simp [hu, Ne.symm hu]
  | cons old rows ih =>
    have hold : old.userId ≠ row.userId := hno old (by simp)
    have ih := ih fun x hx => hno x (by simp [hx])
    rw [List.orderedInsert_cons]
    split_ifs with hle hu hu
    · subst hu; simp
    · rw [List.find?_cons_of_neg (by simpa using Ne.symm hu)]
    · subst hu
      rw [List.find?_cons_of_neg (by simpa using hold), ih, if_pos rfl]
    · rw [if_neg hu] at ih
      by_cases ho : old.userId = u
      · rw [List.find?_cons_of_pos (by simpa using ho), List.find?_cons_of_pos (by simpa using ho)]
      · rw [List.find?_cons_of_neg (by simpa using ho), List.find?_cons_of_neg (by simpa using ho),
          ih]

/-- The row of a user once a new version of a row is committed. -/
theorem row?_apply_update {row : DurableOrder} (h : (db.row? row.userId).isSome) (u : String) :
    (db.apply (.update row)).row? u = if u = row.userId then some row else db.row? u := by
  have hex : ∃ old ∈ db.orders, old.userId = row.userId := by
    obtain ⟨old, hold⟩ := Option.isSome_iff_exists.1 h
    exact ⟨old, mem_orders_of_row? hold, row?_userId hold⟩
  unfold row? apply
  dsimp only
  generalize db.orders = rows at hex
  split_ifs with hu
  · subst hu
    induction rows with
    | nil => simp at hex
    | cons x rows ih =>
      rw [List.map_cons]
      by_cases hx : x.userId = row.userId
      · rw [if_pos hx, List.find?_cons_of_pos (by simp)]
      · rw [if_neg hx, List.find?_cons_of_neg (by simpa using hx)]
        refine ih ?_
        obtain ⟨old, hold, e⟩ := hex
        rcases List.mem_cons.1 hold with rfl | hold
        · exact absurd e hx
        · exact ⟨old, hold, e⟩
  · clear hex
    induction rows with
    | nil => rfl
    | cons x rows ih =>
      rw [List.map_cons]
      by_cases hx : x.userId = row.userId
      · rw [if_pos hx, List.find?_cons_of_neg (by simpa using Ne.symm hu),
          List.find?_cons_of_neg (by simpa [hx] using Ne.symm hu), ih]
      · rw [if_neg hx]
        by_cases ho : x.userId = u
        · rw [List.find?_cons_of_pos (by simpa using ho), List.find?_cons_of_pos (by simpa using ho)]
        · rw [List.find?_cons_of_neg (by simpa using ho), List.find?_cons_of_neg (by simpa using ho),
            ih]

/-! ## What each statement can do -/

theorem exec_begin {r : Except Failure Unit} (h : db.exec c .begin = some (r, db')) :
    r = .ok () ∧ ((db.tx? c).isSome ∧ db' = db ∨ db.tx? c = none ∧ db' = db.setTx c .start) := by
  unfold exec at h
  cases ht : db.tx? c with
  | some t =>
    rw [ht] at h
    obtain ⟨rfl, rfl⟩ := Prod.mk.inj (Option.some.inj h)
    exact ⟨rfl, .inl ⟨rfl, rfl⟩⟩
  | none =>
    rw [ht] at h
    obtain ⟨rfl, rfl⟩ := Prod.mk.inj (Option.some.inj h)
    exact ⟨rfl, .inr ⟨rfl, rfl⟩⟩

theorem exec_rollback {r : Except Failure Unit} (h : db.exec c .rollback = some (r, db')) :
    r = .ok () ∧ db' = db.endTx c := by
  obtain ⟨rfl, rfl⟩ := Prod.mk.inj (Option.some.inj h)
  exact ⟨rfl, rfl⟩

theorem exec_backendPid {r : Except Failure ℕ} (h : db.exec c .backendPid = some (r, db')) :
    r = .ok c ∧ db' = db := by
  obtain ⟨rfl, rfl⟩ := Prod.mk.inj (Option.some.inj h)
  exact ⟨rfl, rfl⟩

theorem exec_commit {r : Except Failure Unit} (h : db.exec c .commit = some (r, db')) :
    r = .ok () ∧ (db.tx? c = none ∧ db' = db ∨
      ∃ tx, db.tx? c = some tx ∧ db' = (tx.write.elim db db.apply).endTx c) := by
  unfold exec at h
  cases ht : db.tx? c with
  | none =>
    rw [ht] at h
    obtain ⟨rfl, rfl⟩ := Prod.mk.inj (Option.some.inj h)
    exact ⟨rfl, .inl ⟨rfl, rfl⟩⟩
  | some t =>
    rw [ht] at h
    obtain ⟨rfl, rfl⟩ := Prod.mk.inj (Option.some.inj h)
    exact ⟨rfl, .inr ⟨t, rfl, rfl⟩⟩

/-- The advisory lock is taken when no other transaction holds its key. -/
theorem exec_lockReservation {id : String} {r : Except Failure Unit}
    (h : db.exec c (.lockReservation id) = some (r, db')) :
    (r = .error .upstream ∧ db' = db) ∨
    ∃ tx, db.tx? c = some tx ∧ r = .ok () ∧
      (∀ c' t, c' ≠ c → db.tx? c' = some t → db.hashtext id ∉ t.advisory) ∧
      db' = db.setTx c { tx with advisory := db.hashtext id :: tx.advisory } := by
  unfold exec at h
  cases ht : db.tx? c with
  | none =>
    rw [ht] at h
    obtain ⟨rfl, rfl⟩ := Prod.mk.inj (Option.some.inj h)
    exact .inl ⟨rfl, rfl⟩
  | some tx =>
    rw [ht] at h
    dsimp only at h
    split_ifs at h with hother
    obtain ⟨rfl, rfl⟩ := Prod.mk.inj (Option.some.inj h)
    refine .inr ⟨tx, rfl, rfl, fun c' t hne htx => ?_, rfl⟩
    simpa using of_not_others hother hne htx

/-- A writing statement waits, is refused, or leaves its write in the transaction. -/
theorem write_cases {w : Write} {α : Type} {a : α} {r : Except Failure α}
    (h : db.write c tx w a = some (r, db')) :
    (r = .error .upstream ∧ db' = db) ∨
    (r = .ok a ∧ db' = db.setTx c { tx with write := some w } ∧ tx.write = none ∧
      db.idTaken w.row = false ∧
      ∀ c' t, c' ≠ c → db.tx? c' = some t → ∀ w', t.write = some w' → w'.row.id ≠ w.row.id) := by
  unfold write at h
  split_ifs at h with hother hbad
  · obtain ⟨rfl, rfl⟩ := Prod.mk.inj (Option.some.inj h)
    exact .inl ⟨rfl, rfl⟩
  · obtain ⟨rfl, rfl⟩ := Prod.mk.inj (Option.some.inj h)
    simp only [Bool.or_eq_true, not_or, Bool.not_eq_true, Bool.not_eq_false'] at hbad
    refine .inr ⟨rfl, rfl, by simpa using hbad.2, hbad.1.1, fun c' t hne ht w' hw => ?_⟩
    have := of_not_others hother hne ht
    simpa [writesId, hw] using this

/-- What a guarded update can do: nothing, or leave a new version of the compensated row with the
given id in the transaction, which then holds the row's lock. -/
def GuardedUpdate (db : Db) (c : ℕ) (p : OrdersQueueJobPayload) (status : DurableOrderStatus)
    (id : String) (r : Except Failure ℕ) (db' : Db) : Prop :=
  ((r = .error .upstream ∨ r = .ok 0) ∧ db' = db) ∨
  ∃ tx old, db.tx? c = some tx ∧ r = .ok 1 ∧ db.row? p.userId = some old ∧ old.id = id ∧
    old.status = .compensated ∧ tx.write = none ∧ db.idTaken (p.toRow status) = false ∧
    (∀ c' t, c' ≠ c → db.tx? c' = some t → p.userId ∉ t.rows) ∧
    (∀ c' t, c' ≠ c → db.tx? c' = some t → ∀ w, t.write = some w →
      w.row.id ≠ (p.toRow status).id) ∧
    db' = db.setTx c { tx with
      rows := p.userId :: tx.rows
      write := some (.update (p.toRow status)) }

theorem guardedUpdate_cases (ht : db.tx? c = some tx) {p : OrdersQueueJobPayload}
    {status : DurableOrderStatus} {id : String} {r : Except Failure ℕ}
    (h : db.guardedUpdate c tx p status id = some (r, db')) :
    db.GuardedUpdate c p status id r db' := by
  unfold guardedUpdate at h
  cases hrow : db.row? p.userId with
  | none =>
    rw [hrow] at h
    obtain ⟨rfl, rfl⟩ := Prod.mk.inj (Option.some.inj h)
    exact .inl ⟨.inr rfl, rfl⟩
  | some old =>
    rw [hrow] at h
    dsimp only at h
    split_ifs at h with hqual hother hallowed
    · obtain ⟨rfl, rfl⟩ := Prod.mk.inj (Option.some.inj h)
      exact .inl ⟨.inr rfl, rfl⟩
    · obtain ⟨rfl, rfl⟩ := Prod.mk.inj (Option.some.inj h)
      exact .inl ⟨.inl rfl, rfl⟩
    · rcases write_cases h with ⟨rfl, rfl⟩ | ⟨rfl, rfl, hw, hid, hids⟩
      · exact .inl ⟨.inl rfl, rfl⟩
      · simp only [not_or, not_not] at hqual
        refine .inr ⟨tx, old, ht, rfl, hrow, hqual.1, hqual.2, hw, hid, fun c' t hne ht => ?_,
          hids, rfl⟩
        simpa using of_not_others hother hne ht

theorem exec_promoteCompensated {p : OrdersQueueJobPayload} {id : String} {r : Except Failure ℕ}
    (h : db.exec c (.promoteCompensated p id) = some (r, db')) :
    db.GuardedUpdate c p .persisted id r db' := by
  unfold exec at h
  cases ht : db.tx? c with
  | none =>
    rw [ht] at h
    obtain ⟨rfl, rfl⟩ := Prod.mk.inj (Option.some.inj h)
    exact .inl ⟨.inl rfl, rfl⟩
  | some tx =>
    rw [ht] at h
    exact guardedUpdate_cases ht h

theorem exec_updateMarker {p : OrdersQueueJobPayload} {id : String} {r : Except Failure ℕ}
    (h : db.exec c (.updateMarker p id) = some (r, db')) :
    db.GuardedUpdate c p .compensated id r db' := by
  unfold exec at h
  cases ht : db.tx? c with
  | none =>
    rw [ht] at h
    obtain ⟨rfl, rfl⟩ := Prod.mk.inj (Option.some.inj h)
    exact .inl ⟨.inl rfl, rfl⟩
  | some tx =>
    rw [ht] at h
    exact guardedUpdate_cases ht h

/-- `INSERT … ON CONFLICT (user_id) DO NOTHING`. -/
theorem exec_insertPersisted {p : OrdersQueueJobPayload} {r : Except Failure ℕ}
    (h : db.exec c (.insertPersisted p) = some (r, db')) :
    (r = .error .upstream ∧ db' = db) ∨ (r = .ok 0 ∧ (db.row? p.userId).isSome ∧ db' = db) ∨
    ∃ tx, db.tx? c = some tx ∧ r = .ok 1 ∧ db.row? p.userId = none ∧ tx.write = none ∧
      db.idTaken (p.toRow .persisted) = false ∧
      (∀ c' t, c' ≠ c → db.tx? c' = some t → ∀ w, t.write = some w →
        w.row.userId ≠ p.userId ∧ w.row.id ≠ (p.toRow .persisted).id) ∧
      db' = db.setTx c { tx with write := some (.insert (p.toRow .persisted)) } := by
  unfold exec at h
  cases ht : db.tx? c with
  | none =>
    rw [ht] at h
    obtain ⟨rfl, rfl⟩ := Prod.mk.inj (Option.some.inj h)
    exact .inl ⟨rfl, rfl⟩
  | some tx =>
    rw [ht] at h
    dsimp only at h
    split_ifs at h with hallowed hother hrow
    · obtain ⟨rfl, rfl⟩ := Prod.mk.inj (Option.some.inj h)
      exact .inl ⟨rfl, rfl⟩
    · obtain ⟨rfl, rfl⟩ := Prod.mk.inj (Option.some.inj h)
      exact .inr (.inl ⟨rfl, hrow, rfl⟩)
    · rcases write_cases h with ⟨rfl, rfl⟩ | ⟨rfl, rfl, hw, hid, hids⟩
      · exact .inl ⟨rfl, rfl⟩
      · refine .inr (.inr ⟨tx, rfl, rfl, by simpa using hrow, hw, hid, ?_, rfl⟩)
        intro c' t hne ht w hw'
        have := of_not_others hother hne ht
        exact ⟨by simpa [writesUser, hw'] using this, hids c' t hne ht w hw'⟩

/-- The plain `INSERT` of a compensation marker. -/
theorem exec_insertMarker {p : OrdersQueueJobPayload} {r : Except Failure Unit}
    (h : db.exec c (.insertMarker p) = some (r, db')) :
    (r = .error .upstream ∧ db' = db) ∨
    ∃ tx, db.tx? c = some tx ∧ r = .ok () ∧ db.row? p.userId = none ∧ tx.write = none ∧
      db.idTaken (p.toRow .compensated) = false ∧
      (∀ c' t, c' ≠ c → db.tx? c' = some t → ∀ w, t.write = some w →
        w.row.userId ≠ p.userId ∧ w.row.id ≠ (p.toRow .compensated).id) ∧
      db' = db.setTx c { tx with write := some (.insert (p.toRow .compensated)) } := by
  unfold exec at h
  cases ht : db.tx? c with
  | none =>
    rw [ht] at h
    obtain ⟨rfl, rfl⟩ := Prod.mk.inj (Option.some.inj h)
    exact .inl ⟨rfl, rfl⟩
  | some tx =>
    rw [ht] at h
    dsimp only at h
    split_ifs at h with hallowed hother hrow
    · obtain ⟨rfl, rfl⟩ := Prod.mk.inj (Option.some.inj h)
      exact .inl ⟨rfl, rfl⟩
    · obtain ⟨rfl, rfl⟩ := Prod.mk.inj (Option.some.inj h)
      exact .inl ⟨rfl, rfl⟩
    · rcases write_cases h with ⟨rfl, rfl⟩ | ⟨rfl, rfl, hw, hid, hids⟩
      · exact .inl ⟨rfl, rfl⟩
      · refine .inr ⟨tx, rfl, rfl, by simpa using hrow, hw, hid, ?_, rfl⟩
        intro c' t hne ht w hw'
        have := of_not_others hother hne ht
        exact ⟨by simpa [writesUser, hw'] using this, hids c' t hne ht w hw'⟩

/-- `SELECT … FOR UPDATE` reads the committed row and locks it, or finds none. -/
theorem exec_selectUserForUpdate {r : Except Failure (Option (String × DurableOrderStatus))}
    (h : db.exec c (.selectUserForUpdate u) = some (r, db')) :
    (r = .error .upstream ∧ db' = db) ∨ (r = .ok none ∧ db.row? u = none ∧ db' = db) ∨
    ∃ tx row, db.tx? c = some tx ∧ db.row? u = some row ∧ r = .ok (some (row.id, row.status)) ∧
      (∀ c' t, c' ≠ c → db.tx? c' = some t → u ∉ t.rows) ∧
      db' = db.setTx c { tx with rows := u :: tx.rows } := by
  unfold exec at h
  cases ht : db.tx? c with
  | none =>
    rw [ht] at h
    obtain ⟨rfl, rfl⟩ := Prod.mk.inj (Option.some.inj h)
    exact .inl ⟨rfl, rfl⟩
  | some tx =>
    rw [ht] at h
    dsimp only at h
    cases hrow : db.row? u with
    | none =>
      rw [hrow] at h
      obtain ⟨rfl, rfl⟩ := Prod.mk.inj (Option.some.inj h)
      exact .inr (.inl ⟨rfl, rfl, rfl⟩)
    | some row =>
      rw [hrow] at h
      dsimp only at h
      split_ifs at h with hother
      obtain ⟨rfl, rfl⟩ := Prod.mk.inj (Option.some.inj h)
      refine .inr (.inr ⟨tx, row, rfl, rfl, rfl, fun c' t hne htx => ?_, rfl⟩)
      simpa using of_not_others hother hne htx

end Db

end FlashSale
