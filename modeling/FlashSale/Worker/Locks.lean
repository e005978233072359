import FlashSale.Worker.Postgres

/-!
# The lock discipline of the repository's transactions

`Db.WF` is the invariant of a database whose clients run only the statements of the repository,
whatever the order: at most one row per user, exclusive advisory keys and row locks, and a pending
write that still fits the committed tables — a new row has no committed row of its user beside it,
and a new version of a row replaces a compensated one that the transaction has locked. Hence what a
commit does to the rows is known (`WF.row?_commit`), and no statement of any client changes a
persisted row (`Evolves.exec`).
-/

namespace FlashSale

namespace Db

/-- The transaction `tx` of client `c` fits the committed tables and the other transactions. -/
structure TxOk (db : Db) (c : ℕ) (tx : Tx) : Prop where
  advisory : ∀ c' t, c' ≠ c → db.tx? c' = some t → ∀ k ∈ tx.advisory, k ∉ t.advisory
  rows : ∀ c' t, c' ≠ c → db.tx? c' = some t → ∀ u ∈ tx.rows, u ∉ t.rows
  writes : ∀ c' t, c' ≠ c → db.tx? c' = some t → ∀ w w', tx.write = some w → t.write = some w' →
    w.row.userId ≠ w'.row.userId
  locked : ∀ u ∈ tx.rows, (db.row? u).isSome
  inserted : ∀ row, tx.write = some (.insert row) → db.row? row.userId = none
  updated : ∀ row, tx.write = some (.update row) → row.userId ∈ tx.rows ∧
    ∃ old, db.row? row.userId = some old ∧ old.status = .compensated

structure WF (db : Db) : Prop where
  users : (db.orders.map (·.userId)).Nodup
  txs : ∀ c tx, db.tx? c = some tx → db.TxOk c tx

variable {db db' : Db} {c c' : ℕ} {tx t : Tx} {u : String}

/-! ## Changing one transaction -/

theorem WF.setTx (h : db.WF) (hok : db.TxOk c tx) : (db.setTx c tx).WF := by
  refine ⟨h.users, fun c' t ht => ?_⟩
  by_cases hc : c' = c
  · subst hc
    obtain rfl : tx = t := by simpa using ht
    refine ⟨fun d t hne ht => ?_, fun d t hne ht => ?_, fun d t hne ht => ?_, hok.locked,
      hok.inserted, hok.updated⟩
    all_goals rw [tx?_setTx_of_ne hne] at ht
    · exact hok.advisory d t hne ht
    · exact hok.rows d t hne ht
    · exact hok.writes d t hne ht
  · rw [tx?_setTx_of_ne hc] at ht
    have h' := h.txs c' t ht
    -- towards the changed transaction its own conditions are used the other way round
    refine ⟨fun d t' hne ht' => ?_, fun d t' hne ht' => ?_, fun d t' hne ht' => ?_, h'.locked,
      h'.inserted, h'.updated⟩
    all_goals
      by_cases hd : d = c
      · subst hd
        obtain rfl : tx = t' := by simpa using ht'
        first
          | exact fun k hk hk' => hok.advisory c' t hc ht k hk' hk
          | exact fun k hk hk' => hok.rows c' t hc ht k hk' hk
          | exact fun w w' hw hw' e => hok.writes c' t hc ht w' w hw' hw e.symm
      · rw [tx?_setTx_of_ne hd] at ht'
        first
          | exact h'.advisory d t' hne ht'
          | exact h'.rows d t' hne ht'
          | exact h'.writes d t' hne ht'

theorem WF.endTx (h : db.WF) (c : ℕ) : (db.endTx c).WF := by
  have hold : ∀ {d t}, (db.endTx c).tx? d = some t → db.tx? d = some t := by
    intro d t ht
    by_cases hd : d = c
    · subst hd; simp at ht
    · rwa [tx?_endTx_of_ne hd] at ht
  refine ⟨h.users, fun d t ht => ?_⟩
  have h' := h.txs d t (hold ht)
  exact ⟨fun d' t' hne ht' => h'.advisory d' t' hne (hold ht'),
    fun d' t' hne ht' => h'.rows d' t' hne (hold ht'),
    fun d' t' hne ht' => h'.writes d' t' hne (hold ht'), h'.locked, h'.inserted, h'.updated⟩

theorem txOk_start (db : Db) (c : ℕ) : db.TxOk c .start where
  advisory := by simp [Tx.start]
  rows := by simp [Tx.start]
  writes := by simp [Tx.start]
  locked := by simp [Tx.start]
  inserted := by simp [Tx.start]
  updated := by simp [Tx.start]

theorem TxOk.lock (h : db.TxOk c tx) {k : ℕ}
    (hk : ∀ c' t, c' ≠ c → db.tx? c' = some t → k ∉ t.advisory) :
    db.TxOk c { tx with advisory := k :: tx.advisory } := by
  refine ⟨fun c' t hne ht k' hk' => ?_, h.rows, h.writes, h.locked, h.inserted, h.updated⟩
  rcases List.mem_cons.1 hk' with rfl | hk'
  · exact hk c' t hne ht
  · exact h.advisory c' t hne ht k' hk'

theorem TxOk.lockRow (h : db.TxOk c tx) (hu : (db.row? u).isSome)
    (hrows : ∀ c' t, c' ≠ c → db.tx? c' = some t → u ∉ t.rows) :
    db.TxOk c { tx with rows := u :: tx.rows } := by
  refine ⟨h.advisory, fun c' t hne ht v hv => ?_, h.writes, fun v hv => ?_, h.inserted,
    fun row hw => ?_⟩
  · rcases List.mem_cons.1 hv with rfl | hv
    · exact hrows c' t hne ht
    · exact h.rows c' t hne ht v hv
  · rcases List.mem_cons.1 hv with rfl | hv
    · exact hu
    · exact h.locked v hv
  · obtain ⟨hm, hold⟩ := h.updated row hw
    exact ⟨List.mem_cons_of_mem _ hm, hold⟩

theorem TxOk.insert (h : db.TxOk c tx) {row : DurableOrder} (hnone : db.row? row.userId = none)
    (hw : ∀ c' t, c' ≠ c → db.tx? c' = some t → ∀ w, t.write = some w →
      w.row.userId ≠ row.userId) : db.TxOk c { tx with write := some (.insert row) } := by
  refine ⟨h.advisory, h.rows, ?_, h.locked, ?_, by simp⟩
  · rintro c' t hne ht _ w' ⟨⟩ hw'
    exact (hw c' t hne ht w' hw').symm
  · rintro _ ⟨⟩
    exact hnone

/-- A pending version of a row that the transaction has locked meets no other write of its user:
that one would be a new row, or hold the lock. -/
theorem WF.txOk_update (hwf : db.WF) (h : db.TxOk c tx) {row old : DurableOrder}
    (hrow : db.row? row.userId = some old) (hcomp : old.status = .compensated)
    (hlock : row.userId ∈ tx.rows) : db.TxOk c { tx with write := some (.update row) } := by
  refine ⟨h.advisory, h.rows, ?_, h.locked, by simp, ?_⟩
  · rintro c' t hne ht _ w' ⟨⟩ hw' e
    have h' := hwf.txs c' t ht
    cases w' with
    | insert row' =>
      have := h'.inserted row' hw'
      have e' : row.userId = row'.userId := e
      rw [← e', hrow] at this
      cases this
    | update row' =>
      have e' : row.userId = row'.userId := e
      exact h.rows c' t hne ht _ hlock (e' ▸ (h'.updated row' hw').1)
  · rintro _ ⟨⟩
    exact ⟨hlock, old, hrow, hcomp⟩

theorem WF.guardedUpdate (h : db.WF) {p : OrdersQueueJobPayload} {status : DurableOrderStatus}
    {id : String} {r : Except Failure ℕ} (hg : db.GuardedUpdate c p status id r db') : db'.WF := by
  rcases hg with ⟨-, rfl⟩ | ⟨tx, old, ht, -, hrow, -, hcomp, -, -, hrows, -, rfl⟩
  · exact h
  · have hlock := (h.txs c tx ht).lockRow (u := p.userId) (by simp [hrow]) hrows
    have hmem : (p.toRow status).userId ∈ p.userId :: tx.rows := by
      simp [OrdersQueueJobPayload.toRow]
    exact h.setTx (h.txOk_update hlock hrow hcomp hmem)

/-! ## Commit -/

theorem WF.row?_apply (h : db.WF) (ht : db.tx? c = some tx) {w : Write} (hw : tx.write = some w)
    (u : String) : (db.apply w).row? u = if u = w.row.userId then some w.row else db.row? u := by
  have hok := h.txs c tx ht
  cases w with
  | insert row => exact row?_apply_insert (hok.inserted row hw) u
  | update row =>
    obtain ⟨-, old, hold, -⟩ := hok.updated row hw
    exact row?_apply_update (by simp [hold]) u

theorem users_apply_update (db : Db) (row : DurableOrder) :
    (db.apply (.update row)).orders.map (·.userId) = db.orders.map (·.userId) := by
  show (db.orders.map _).map _ = _
  rw [List.map_map]
  refine List.map_congr_left fun old _ => ?_
  by_cases e : old.userId = row.userId
  · simp [e]
  · simp [e]

theorem users_apply_insert (db : Db) (row : DurableOrder) :
    (db.apply (.insert row)).orders.map (·.userId) =
      (db.orders.map (·.userId)).orderedInsert (· ≤ ·) row.userId := by
  exact List.map_orderedInsert _ _ DurableOrder.userId db.orders row (fun _ _ => Iff.rfl)
    (fun _ _ => Iff.rfl)

theorem WF.apply (h : db.WF) (ht : db.tx? c = some tx) {w : Write} (hw : tx.write = some w) :
    ((db.apply w).endTx c).WF := by
  have hok := h.txs c tx ht
  have hrow := h.row?_apply ht hw
  have hold : ∀ {d t}, ((db.apply w).endTx c).tx? d = some t → d ≠ c ∧ db.tx? d = some t := by
    intro d t hd
    by_cases e : d = c
    · subst e; simp at hd
    · rw [tx?_endTx_of_ne e, tx?_apply] at hd
      exact ⟨e, hd⟩
  refine ⟨?_, fun d t hd => ?_⟩
  · cases w with
    | insert row =>
      show ((db.apply (.insert row)).orders.map (·.userId)).Nodup
      rw [users_apply_insert, (List.perm_orderedInsert _ _ _).nodup_iff, List.nodup_cons]
      refine ⟨fun hm => ?_, h.users⟩
      obtain ⟨old, hmem, e⟩ := List.mem_map.1 hm
      exact row?_eq_none.1 (hok.inserted row hw) old hmem e
    | update row =>
      show ((db.apply (.update row)).orders.map (·.userId)).Nodup
      rw [users_apply_update]
      exact h.users
  · obtain ⟨hdc, hd⟩ := hold hd
    have h' := h.txs d t hd
    have hother : ∀ w', t.write = some w' → w'.row.userId ≠ w.row.userId :=
      fun w' hw' => h'.writes c tx (Ne.symm hdc) ht w' w hw' hw
    refine ⟨fun d' t' hne ht' => h'.advisory d' t' hne (hold ht').2,
      fun d' t' hne ht' => h'.rows d' t' hne (hold ht').2,
      fun d' t' hne ht' => h'.writes d' t' hne (hold ht').2, fun v hv => ?_, fun row hr => ?_,
      fun row hr => ?_⟩
    · rw [row?_endTx, hrow]
      split_ifs
      · rfl
      · exact h'.locked v hv
    · rw [row?_endTx, hrow, if_neg (show row.userId ≠ _ from hother _ hr)]
      exact h'.inserted row hr
    · rw [row?_endTx, hrow, if_neg (show row.userId ≠ _ from hother _ hr)]
      exact h'.updated row hr

/-! ## Every statement -/

/-- **The lock discipline** survives every statement of every client. -/
theorem WF.exec (h : db.WF) {st : Statement} {r : Except Failure st.Res}
    (he : db.exec c st = some (r, db')) : db'.WF := by
  cases st with
  | begin =>
    obtain ⟨-, ⟨-, rfl⟩ | ⟨-, rfl⟩⟩ := exec_begin he
    · exact h
    · exact h.setTx (txOk_start db c)
  | backendPid => obtain ⟨-, rfl⟩ := exec_backendPid he; exact h
  | rollback => obtain ⟨-, rfl⟩ := exec_rollback he; exact h.endTx c
  | commit =>
    obtain ⟨-, ⟨-, rfl⟩ | ⟨tx, ht, rfl⟩⟩ := exec_commit he
    · exact h
    · cases hw : tx.write with
      | none => exact h.endTx c
      | some w => exact h.apply ht hw
  | lockReservation id =>
    rcases exec_lockReservation he with ⟨-, rfl⟩ | ⟨tx, ht, -, hk, rfl⟩
    · exact h
    · exact h.setTx ((h.txs c tx ht).lock hk)
  | insertPersisted p =>
    rcases exec_insertPersisted he with ⟨-, rfl⟩ | ⟨-, -, rfl⟩ | ⟨tx, ht, -, hn, -, -, hw, rfl⟩
    · exact h
    · exact h
    · exact h.setTx ((h.txs c tx ht).insert hn fun c' t hne ht w e => (hw c' t hne ht w e).1)
  | insertMarker p =>
    rcases exec_insertMarker he with ⟨-, rfl⟩ | ⟨tx, ht, -, hn, -, -, hw, rfl⟩
    · exact h
    · exact h.setTx ((h.txs c tx ht).insert hn fun c' t hne ht w e => (hw c' t hne ht w e).1)
  | selectUserForUpdate u =>
    rcases exec_selectUserForUpdate he with ⟨-, rfl⟩ | ⟨-, -, rfl⟩ | ⟨tx, row, ht, hr, -, hl, rfl⟩
    · exact h
    · exact h
    · exact h.setTx ((h.txs c tx ht).lockRow (by simp [hr]) hl)
  | promoteCompensated p id => exact h.guardedUpdate (exec_promoteCompensated he)
  | updateMarker p id => exact h.guardedUpdate (exec_updateMarker he)

/-! ## Frames -/

/-- A statement touches only its client's transaction, and only a commit changes the rows. -/
theorem exec_frame {st : Statement} {r : Except Failure st.Res}
    (he : db.exec c st = some (r, db')) :
    db'.hashtext = db.hashtext ∧ (∀ c', c' ≠ c → db'.tx? c' = db.tx? c') ∧
      (st = .commit ∨ db'.orders = db.orders) := by
  have hset : ∀ t, (db.setTx c t).hashtext = db.hashtext ∧
      (∀ c', c' ≠ c → (db.setTx c t).tx? c' = db.tx? c') ∧
      (st = .commit ∨ (db.setTx c t).orders = db.orders) :=
    fun t => ⟨rfl, fun c' hne => tx?_setTx_of_ne hne, .inr rfl⟩
  have hself : db.hashtext = db.hashtext ∧ (∀ c', c' ≠ c → db.tx? c' = db.tx? c') ∧
      (st = .commit ∨ db.orders = db.orders) := ⟨rfl, fun _ _ => rfl, .inr rfl⟩
  cases st with
  | begin =>
    obtain ⟨-, ⟨-, rfl⟩ | ⟨-, rfl⟩⟩ := exec_begin he
    · exact hself
    · exact hset _
  | backendPid => obtain ⟨-, rfl⟩ := exec_backendPid he; exact hself
  | rollback =>
    obtain ⟨-, rfl⟩ := exec_rollback he
    exact ⟨rfl, fun c' hne => tx?_endTx_of_ne hne, .inr rfl⟩
  | commit =>
    obtain ⟨-, ⟨-, rfl⟩ | ⟨tx, -, rfl⟩⟩ := exec_commit he
    · exact hself
    · refine ⟨?_, fun c' hne => ?_, .inl rfl⟩
      · cases tx.write <;> simp
      · rw [tx?_endTx_of_ne hne]
        cases tx.write <;> simp
  | lockReservation id =>
    rcases exec_lockReservation he with ⟨-, rfl⟩ | ⟨tx, -, -, -, rfl⟩
    · exact hself
    · exact hset _
  | insertPersisted p =>
    rcases exec_insertPersisted he with ⟨-, rfl⟩ | ⟨-, -, rfl⟩ | ⟨tx, -, -, -, -, -, -, rfl⟩
    · exact hself
    · exact hself
    · exact hset _
  | insertMarker p =>
    rcases exec_insertMarker he with ⟨-, rfl⟩ | ⟨tx, -, -, -, -, -, -, rfl⟩
    · exact hself
    · exact hset _
  | selectUserForUpdate u =>
    rcases exec_selectUserForUpdate he with ⟨-, rfl⟩ | ⟨-, -, rfl⟩ | ⟨tx, row, -, -, -, -, rfl⟩
    · exact hself
    · exact hself
    · exact hset _
  | promoteCompensated p id =>
    rcases exec_promoteCompensated he with ⟨-, rfl⟩ | ⟨tx, old, -, -, -, -, -, -, -, -, -, rfl⟩
    · exact hself
    · exact hset _
  | updateMarker p id =>
    rcases exec_updateMarker he with ⟨-, rfl⟩ | ⟨tx, old, -, -, -, -, -, -, -, -, -, rfl⟩
    · exact hself
    · exact hset _

/-- The write a client has pending. -/
def pending (db : Db) (c : ℕ) : Option Write := (db.tx? c).bind (·.write)

theorem exists_tx_of_pending {w : Write} (h : db.pending c = some w) :
    ∃ tx, db.tx? c = some tx ∧ tx.write = some w := by
  unfold pending at h
  cases ht : db.tx? c with
  | none => rw [ht] at h; cases h
  | some tx => rw [ht] at h; exact ⟨tx, rfl, h⟩

/-- The rows after a statement: a commit puts the pending row in its user's place. -/
theorem WF.row?_exec (h : db.WF) {st : Statement} {r : Except Failure st.Res}
    (he : db.exec c st = some (r, db')) (u : String) :
    db'.row? u = db.row? u ∨
      st = .commit ∧ ∃ w, db.pending c = some w ∧ u = w.row.userId ∧ db'.row? u = some w.row := by
  rcases (exec_frame he).2.2 with rfl | e
  · obtain ⟨-, ⟨-, rfl⟩ | ⟨tx, ht, rfl⟩⟩ := exec_commit he
    · exact .inl rfl
    · cases hw : tx.write with
      | none => exact .inl rfl
      | some w =>
        have hrow : ((db.apply w).endTx c).row? u = _ := h.row?_apply ht hw u
        show ((db.apply w).endTx c).row? u = _ ∨ _
        rw [hrow]
        split_ifs with hu
        · exact .inr ⟨rfl, w, by simp [pending, ht, hw], hu, by simpa [hu] using hrow⟩
        · exact .inl rfl
  · exact .inl (by unfold row?; rw [e])

/-- A commit puts the pending row in its user's place. -/
theorem WF.row?_commit (h : db.WF) {r : Except Failure Unit}
    (he : db.exec c .commit = some (r, db')) {w : Write} (hw : db.pending c = some w) :
    db'.row? w.row.userId = some w.row := by
  obtain ⟨tx, ht, htw⟩ := exists_tx_of_pending hw
  obtain ⟨-, ⟨hn, -⟩ | ⟨tx', ht', rfl⟩⟩ := exec_commit he
  · rw [ht] at hn; cases hn
  · obtain rfl := Option.some.inj (ht.symm.trans ht')
    rw [htw, row?_endTx]
    exact (h.row?_apply ht htw _).trans (if_pos rfl)

theorem mem_orders_apply {w : Write} {row : DurableOrder} (h : row ∈ (db.apply w).orders) :
    row ∈ db.orders ∨ row = w.row := by
  cases w with
  | insert r =>
    have h' : row ∈ db.orders.orderedInsert (·.userId ≤ ·.userId) r := h
    rw [List.mem_orderedInsert] at h'
    exact h'.symm
  | update r =>
    obtain ⟨old, hold, e⟩ := List.mem_map.1 h
    split_ifs at e
    · exact .inr e.symm
    · exact .inl (e ▸ hold)

/-- A row of the table is an old one or was pending at its commit. -/
theorem mem_orders_exec {st : Statement} {r : Except Failure st.Res}
    (he : db.exec c st = some (r, db')) {row : DurableOrder} (h : row ∈ db'.orders) :
    row ∈ db.orders ∨ ∃ w, db.pending c = some w ∧ row = w.row := by
  rcases (exec_frame he).2.2 with rfl | e
  · obtain ⟨-, ⟨-, rfl⟩ | ⟨tx, ht, rfl⟩⟩ := exec_commit he
    · exact .inl h
    · cases hw : tx.write with
      | none => rw [hw] at h; exact .inl h
      | some w =>
        rw [hw] at h
        rcases mem_orders_apply (w := w) h with h | h
        · exact .inl h
        · exact .inr ⟨w, by simp [pending, ht, hw], h⟩
  · exact .inl (e ▸ h)

theorem row?_of_mem_orders (h : (db.orders.map (·.userId)).Nodup) {row : DurableOrder}
    (hm : row ∈ db.orders) : db.row? row.userId = some row := by
  obtain ⟨row', hrow'⟩ := Option.isSome_iff_exists.1 (row?_isSome_of_mem hm)
  have heq : row' = row := List.inj_on_of_nodup_map h (mem_orders_of_row? hrow') hm
    (row?_userId hrow')
  rw [hrow', heq]

theorem WF.row?_of_mem (h : db.WF) {row : DurableOrder} (hm : row ∈ db.orders)
    (hu : row.userId = u) : db.row? u = some row := by
  subst hu
  exact row?_of_mem_orders h.users hm

/-! ## Rows over time -/

/-- The rows of `db'` come from those of `db` by new users and new versions of compensated rows. -/
structure Evolves (db db' : Db) : Prop where
  keeps : ∀ u row, db.row? u = some row → row.status = .persisted → db'.row? u = some row
  grows : ∀ u, (db.row? u).isSome → (db'.row? u).isSome
  order : (db.orders.map (·.userId)).Sublist (db'.orders.map (·.userId))

theorem Evolves.refl (db : Db) : Evolves db db := ⟨fun _ _ h _ => h, fun _ h => h, .refl _⟩

theorem Evolves.trans {db'' : Db} (h : Evolves db db') (h' : Evolves db' db'') :
    Evolves db db'' :=
  ⟨fun u row hr hp => h'.keeps u row (h.keeps u row hr hp) hp,
    fun u hu => h'.grows u (h.grows u hu), h.order.trans h'.order⟩

theorem Evolves.of_orders (h : db'.orders = db.orders) : Evolves db db' := by
  refine ⟨fun u row hr _ => ?_, fun u hu => ?_, by rw [h]⟩
  · unfold row? at *; rwa [h]
  · unfold row? at *; rwa [h]

/-- **Persisted rows are absorbing**: no statement of any client changes one. -/
theorem Evolves.exec (h : db.WF) {st : Statement} {r : Except Failure st.Res}
    (he : db.exec c st = some (r, db')) : Evolves db db' := by
  rcases (exec_frame he).2.2 with rfl | e
  · obtain ⟨-, ⟨-, rfl⟩ | ⟨tx, ht, rfl⟩⟩ := exec_commit he
    · exact .refl _
    · cases hw : tx.write with
      | none => exact .of_orders rfl
      | some w =>
        have hrow := h.row?_apply ht hw
        have hok := h.txs c tx ht
        refine ⟨fun u row hr hp => ?_, fun u hu => ?_, ?_⟩
        · show (db.apply w).row? u = some row
          rw [hrow, if_neg ?_]
          · exact hr
          · -- the pending write is of a user without a row, or with a compensated one
            rintro rfl
            cases w with
            | insert row' => cases (hok.inserted row' hw).symm.trans hr
            | update row' =>
              obtain ⟨-, old, hold, hcomp⟩ := hok.updated row' hw
              obtain rfl : old = row := Option.some.inj (hold.symm.trans hr)
              rw [hp] at hcomp
              cases hcomp
        · show ((db.apply w).row? u).isSome
          rw [hrow]
          split_ifs
          · rfl
          · exact hu
        · show (db.orders.map (·.userId)).Sublist ((db.apply w).orders.map (·.userId))
          cases w with
          | insert row => rw [users_apply_insert]; exact List.sublist_orderedInsert _ _
          | update row => rw [users_apply_update]
  · exact .of_orders e

end Db

end FlashSale
