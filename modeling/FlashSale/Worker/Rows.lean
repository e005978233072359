import FlashSale.Lib.Paging
import FlashSale.Worker.Locks

/-!
# What the transactions of the repository do to each other

Client `0` is the resolver (`resolveFailed` calls are serialised); every other client persists.
`SqlPre` is what a client guarantees before a writing statement: it holds the advisory lock of the
reservation it writes, a persister writes only persisted rows and the resolver only markers, and an
update gives the row another id. `RepoInv` is the invariant all of them keep, and `Db.Rely c` is
what client `c` can count on while the others run (`Db.Rely.exec`): its own transaction and the
rows it locked stay, and no row appears under a reservation id whose advisory lock it holds.
-/

namespace FlashSale

namespace Db

variable {db db' db'' : Db} {c d : ℕ} {tx : Tx} {u : String}

/-- The client's transaction holds the advisory lock of a reservation id. -/
def Holds (db : Db) (c : ℕ) (id : String) : Prop :=
  ∃ tx, db.tx? c = some tx ∧ db.hashtext id ∈ tx.advisory

/-- The client's transaction holds the row lock of a user. -/
def HoldsRow (db : Db) (c : ℕ) (u : String) : Prop := ∃ tx, db.tx? c = some tx ∧ u ∈ tx.rows

/-- The committed row of `u` is `(id, status)`. -/
def RowIs (db : Db) (u id : String) (status : DurableOrderStatus) : Prop :=
  ∃ row, db.row? u = some row ∧ row.id = id ∧ row.status = status

theorem RowIs.inj {id id' : String} {st st' : DurableOrderStatus} (h : db.RowIs u id st)
    (h' : db.RowIs u id' st') : id = id' ∧ st = st' := by
  obtain ⟨row, hr, rfl, rfl⟩ := h
  obtain ⟨row', hr', rfl, rfl⟩ := h'
  obtain rfl := Option.some.inj (hr.symm.trans hr')
  exact ⟨rfl, rfl⟩

instance (db : Db) (u id : String) (st : DurableOrderStatus) : Decidable (db.RowIs u id st) :=
  decidable_of_iff (∃ row ∈ db.row? u, row.id = id ∧ row.status = st) Iff.rfl

theorem rowIs_congr (h : db'.row? u = db.row? u) {id : String} {st : DurableOrderStatus} :
    db'.RowIs u id st ↔ db.RowIs u id st := by
  unfold RowIs; rw [h]

/-- The invariant of the repository's transactions. -/
structure RepoInv (db : Db) : Prop where
  wf : db.WF
  keyed : ∀ c w, db.pending c = some w → db.Holds c w.row.id
  persists : ∀ c w, c ≠ 0 → db.pending c = some w → w.row.status = .persisted
  marks : ∀ w, db.pending 0 = some w → w.row.status = .compensated
  renames : ∀ c row, db.pending c = some (.update row) →
    ∃ old, db.row? row.userId = some old ∧ old.id ≠ row.id

/-- What a client guarantees before a statement. -/
def SqlPre (db : Db) (c : ℕ) : Statement → Prop
  | .insertPersisted p => c ≠ 0 ∧ db.Holds c (pgUuid p.reservationId)
  | .promoteCompensated p id =>
    c ≠ 0 ∧ db.Holds c (pgUuid p.reservationId) ∧ id ≠ pgUuid p.reservationId
  | .insertMarker p => c = 0 ∧ db.Holds c (pgUuid p.reservationId)
  | .updateMarker p id => c = 0 ∧ db.Holds c (pgUuid p.reservationId) ∧ id ≠ pgUuid p.reservationId
  | _ => True

/-! ## Pending writes -/

theorem pending_eq (ht : db.tx? c = some tx) : db.pending c = tx.write := by
  unfold pending; rw [ht]; rfl

theorem pending_none (ht : db.tx? c = none) : db.pending c = none := by
  unfold pending; rw [ht]; rfl

/-- Without transactions only the users have to differ. -/
theorem RepoInv.idle (hu : (db.orders.map (·.userId)).Nodup) (htx : ∀ c, db.tx? c = none) :
    db.RepoInv := by
  have hpend : ∀ c, db.pending c = none := fun c => pending_none (htx c)
  refine ⟨⟨hu, fun c tx ht => ?_⟩, fun c w hw => ?_, fun c w _ hw => ?_, fun w hw => ?_,
    fun c row hw => ?_⟩
  · rw [htx] at ht; cases ht
  all_goals rw [hpend] at hw; cases hw

theorem pending_congr (ht : db'.tx? c = db.tx? c) : db'.pending c = db.pending c := by
  unfold pending; rw [ht]

theorem holds_congr (ht : db'.tx? c = db.tx? c) (hh : db'.hashtext = db.hashtext) {id : String} :
    db'.Holds c id ↔ db.Holds c id := by
  unfold Holds; rw [ht, hh]

/-- Two clients never hold the same advisory lock. -/
theorem WF.holds_unique (h : db.WF) {id : String} (hc : db.Holds c id) (hd : db.Holds d id) :
    c = d := by
  obtain ⟨t, ht, hk⟩ := hc
  obtain ⟨t', ht', hk'⟩ := hd
  by_contra hne
  exact (h.txs c t ht).advisory d t' (Ne.symm hne) ht' _ hk hk'

/-- After a statement the pending writes of its client are the old ones, or the write it made. -/
inductive NewWrite (db : Db) (c : ℕ) : Statement → Write → Prop where
  | insertPersisted (p : OrdersQueueJobPayload) (hnone : db.row? p.userId = none) :
      NewWrite db c (.insertPersisted p) (.insert (p.toRow .persisted))
  | insertMarker (p : OrdersQueueJobPayload) :
      NewWrite db c (.insertMarker p) (.insert (p.toRow .compensated))
  | promote (p : OrdersQueueJobPayload) (old : DurableOrder) (hold : db.row? p.userId = some old) :
      NewWrite db c (.promoteCompensated p old.id) (.update (p.toRow .persisted))
  | updateMarker (p : OrdersQueueJobPayload) (old : DurableOrder)
      (hold : db.row? p.userId = some old) :
      NewWrite db c (.updateMarker p old.id) (.update (p.toRow .compensated))

theorem pending_exec {st : Statement} {r : Except Failure st.Res}
    (he : db.exec c st = some (r, db')) {w : Write} (hw : db'.pending c = some w) :
    (db.pending c = some w ∧ ∀ id, db.Holds c id → db'.Holds c id) ∨
      NewWrite db c st w ∧ ∀ id, db.Holds c id → db'.Holds c id := by
  have hset : ∀ {t t' : Tx}, db.tx? c = some t → (∀ k ∈ t.advisory, k ∈ t'.advisory) →
      ∀ id, db.Holds c id → (db.setTx c t').Holds c id := by
    rintro t t' ht hsub id ⟨t'', ht'', hk⟩
    obtain rfl := Option.some.inj (ht.symm.trans ht'')
    exact ⟨t', by simp, hsub _ hk⟩
  cases st with
  | begin =>
    obtain ⟨-, ⟨-, rfl⟩ | ⟨-, rfl⟩⟩ := exec_begin he
    · exact .inl ⟨hw, fun _ h => h⟩
    · simp [pending, Tx.start] at hw
  | backendPid => obtain ⟨-, rfl⟩ := exec_backendPid he; exact .inl ⟨hw, fun _ h => h⟩
  | rollback =>
    obtain ⟨-, rfl⟩ := exec_rollback he
    simp [pending] at hw
  | commit =>
    obtain ⟨-, ⟨-, rfl⟩ | ⟨t, -, rfl⟩⟩ := exec_commit he
    · exact .inl ⟨hw, fun _ h => h⟩
    · simp [pending] at hw
  | lockReservation id =>
    rcases exec_lockReservation he with ⟨-, rfl⟩ | ⟨t, ht, -, -, rfl⟩
    · exact .inl ⟨hw, fun _ h => h⟩
    · refine .inl ⟨?_, hset ht fun k hk => List.mem_cons_of_mem _ hk⟩
      rw [pending_eq ht]
      simpa [pending] using hw
  | selectUserForUpdate v =>
    rcases exec_selectUserForUpdate he with ⟨-, rfl⟩ | ⟨-, -, rfl⟩ | ⟨t, row, ht, -, -, -, rfl⟩
    · exact .inl ⟨hw, fun _ h => h⟩
    · exact .inl ⟨hw, fun _ h => h⟩
    · refine .inl ⟨?_, hset ht fun k hk => hk⟩
      rw [pending_eq ht]
      simpa [pending] using hw
  | insertPersisted p =>
    rcases exec_insertPersisted he with ⟨-, rfl⟩ | ⟨-, -, rfl⟩ | ⟨t, ht, -, hn, -, -, -, rfl⟩
    · exact .inl ⟨hw, fun _ h => h⟩
    · exact .inl ⟨hw, fun _ h => h⟩
    · obtain rfl : Write.insert (p.toRow .persisted) = w := by simpa [pending] using hw
      exact .inr ⟨.insertPersisted p hn, hset ht fun k hk => hk⟩
  | insertMarker p =>
    rcases exec_insertMarker he with ⟨-, rfl⟩ | ⟨t, ht, -, -, -, -, -, rfl⟩
    · exact .inl ⟨hw, fun _ h => h⟩
    · obtain rfl : Write.insert (p.toRow .compensated) = w := by simpa [pending] using hw
      exact .inr ⟨.insertMarker p, hset ht fun k hk => hk⟩
  | promoteCompensated p id =>
    rcases exec_promoteCompensated he with ⟨-, rfl⟩ | ⟨t, old, ht, -, hrow, rfl, -, -, -, -, -, rfl⟩
    · exact .inl ⟨hw, fun _ h => h⟩
    · obtain rfl : Write.update (p.toRow .persisted) = w := by simpa [pending] using hw
      exact .inr ⟨.promote p old hrow, hset ht fun k hk => hk⟩
  | updateMarker p id =>
    rcases exec_updateMarker he with ⟨-, rfl⟩ | ⟨t, old, ht, -, hrow, rfl, -, -, -, -, -, rfl⟩
    · exact .inl ⟨hw, fun _ h => h⟩
    · obtain rfl : Write.update (p.toRow .compensated) = w := by simpa [pending] using hw
      exact .inr ⟨.updateMarker p old hrow, hset ht fun k hk => hk⟩

/-- A client keeps its advisory locks until its transaction ends. -/
theorem Holds.exec {st : Statement} {r : Except Failure st.Res} {id : String} (h : db.Holds c id)
    (he : db.exec c st = some (r, db')) (hc : st ≠ .commit) (hr : st ≠ .rollback) :
    db'.Holds c id := by
  obtain ⟨tx, htx, hk⟩ := h
  have hset : ∀ {t t' : Tx}, db.tx? c = some t → (∀ k ∈ t.advisory, k ∈ t'.advisory) →
      (db.setTx c t').Holds c id := by
    intro t t' ht hsub
    obtain rfl := Option.some.inj (htx.symm.trans ht)
    exact ⟨t', by simp, hsub _ hk⟩
  have hsame : db.Holds c id := ⟨tx, htx, hk⟩
  cases st with
  | begin =>
    obtain ⟨-, ⟨-, rfl⟩ | ⟨hn, -⟩⟩ := exec_begin he
    · exact hsame
    · rw [htx] at hn; cases hn
  | backendPid => obtain ⟨-, rfl⟩ := exec_backendPid he; exact hsame
  | rollback => exact absurd rfl hr
  | commit => exact absurd rfl hc
  | lockReservation id =>
    rcases exec_lockReservation he with ⟨-, rfl⟩ | ⟨t, ht, -, -, rfl⟩
    · exact hsame
    · exact hset ht fun k hk => List.mem_cons_of_mem _ hk
  | selectUserForUpdate v =>
    rcases exec_selectUserForUpdate he with ⟨-, rfl⟩ | ⟨-, -, rfl⟩ | ⟨t, row, ht, -, -, -, rfl⟩
    · exact hsame
    · exact hsame
    · exact hset ht fun k hk => hk
  | insertPersisted p =>
    rcases exec_insertPersisted he with ⟨-, rfl⟩ | ⟨-, -, rfl⟩ | ⟨t, ht, -, -, -, -, -, rfl⟩
    · exact hsame
    · exact hsame
    · exact hset ht fun k hk => hk
  | insertMarker p =>
    rcases exec_insertMarker he with ⟨-, rfl⟩ | ⟨t, ht, -, -, -, -, -, rfl⟩
    · exact hsame
    · exact hset ht fun k hk => hk
  | promoteCompensated p id =>
    rcases exec_promoteCompensated he with ⟨-, rfl⟩ | ⟨t, old, ht, -, -, -, -, -, -, -, -, rfl⟩
    · exact hsame
    · exact hset ht fun k hk => hk
  | updateMarker p id =>
    rcases exec_updateMarker he with ⟨-, rfl⟩ | ⟨t, old, ht, -, -, -, -, -, -, -, -, rfl⟩
    · exact hsame
    · exact hset ht fun k hk => hk

/-- The old row a pending update replaces stays until its transaction ends. -/
theorem WF.row?_update_of_ne (h : db.WF) {st : Statement} {r : Except Failure st.Res}
    (he : db.exec d st = some (r, db')) (hne : c ≠ d) {w : Write} (hw : db.pending c = some w) :
    db'.row? w.row.userId = db.row? w.row.userId := by
  rcases h.row?_exec he w.row.userId with e | ⟨-, w', hw', hu, -⟩
  · exact e
  · obtain ⟨t, ht, htw⟩ := exists_tx_of_pending hw
    obtain ⟨t', ht', htw'⟩ := exists_tx_of_pending hw'
    exact absurd hu ((h.txs c t ht).writes d t' (Ne.symm hne) ht' w w' htw htw')

/-- **The invariant** survives every statement whose client keeps its guarantee. -/
theorem RepoInv.exec (h : db.RepoInv) {st : Statement} {r : Except Failure st.Res}
    (hpre : db.SqlPre c st) (he : db.exec c st = some (r, db')) : db'.RepoInv := by
  obtain ⟨hhash, htxs, horders⟩ := exec_frame he
  refine ⟨h.wf.exec he, fun d w hw => ?_, fun d w hd hw => ?_, fun w hw => ?_, fun d row hw => ?_⟩
  · by_cases hdc : d = c
    · subst hdc
      rcases pending_exec he hw with ⟨hold, hk⟩ | ⟨hnew, hk⟩
      · exact hk _ (h.keyed d w hold)
      · cases hnew with
        | insertPersisted p _ => exact hk _ hpre.2
        | insertMarker p => exact hk _ hpre.2
        | promote p old _ => exact hk _ hpre.2.1
        | updateMarker p old _ => exact hk _ hpre.2.1
    · rw [pending_congr (htxs d hdc)] at hw
      exact (holds_congr (htxs d hdc) hhash).2 (h.keyed d w hw)
  · by_cases hdc : d = c
    · subst hdc
      rcases pending_exec he hw with ⟨hold, -⟩ | ⟨hnew, -⟩
      · exact h.persists d w hd hold
      · cases hnew with
        | insertPersisted p _ => rfl
        | insertMarker p => exact absurd hpre.1 hd
        | promote p old _ => rfl
        | updateMarker p old _ => exact absurd hpre.1 hd
    · rw [pending_congr (htxs d hdc)] at hw
      exact h.persists d w hd hw
  · by_cases hdc : 0 = c
    · subst hdc
      rcases pending_exec he hw with ⟨hold, -⟩ | ⟨hnew, -⟩
      · exact h.marks w hold
      · cases hnew with
        | insertPersisted p _ => exact absurd rfl hpre.1
        | insertMarker p => rfl
        | promote p old _ => exact absurd rfl hpre.1
        | updateMarker p old _ => rfl
    · rw [pending_congr (htxs 0 hdc)] at hw
      exact h.marks w hw
  · by_cases hdc : d = c
    · subst hdc
      have hrows : db'.orders = db.orders := by
        rcases horders with rfl | e
        · obtain ⟨-, ⟨-, rfl⟩ | ⟨t, -, rfl⟩⟩ := exec_commit he
          · rfl
          · simp [pending] at hw
        · exact e
      have hrow : ∀ v, db'.row? v = db.row? v := fun v => by unfold row?; rw [hrows]
      rw [hrow]
      rcases pending_exec he hw with ⟨hold, -⟩ | ⟨hnew, -⟩
      · exact h.renames d row hold
      · cases hnew with
        | promote p old hold => exact ⟨old, hold, hpre.2.2⟩
        | updateMarker p old hold => exact ⟨old, hold, hpre.2.2⟩
    · rw [pending_congr (htxs d hdc)] at hw
      have hrow := h.wf.row?_update_of_ne he hdc hw
      obtain ⟨old, hold, hne⟩ := h.renames d row hw
      exact ⟨old, hrow.trans hold, hne⟩

/-! ## What a client can rely on -/

/-- What the other clients do between two statements of client `c`. -/
structure Rely (c : ℕ) (db db' : Db) : Prop where
  evolves : Evolves db db'
  hashtext : db'.hashtext = db.hashtext
  tx : db'.tx? c = db.tx? c
  locked : ∀ u, db.HoldsRow c u → db'.row? u = db.row? u
  keyed : ∀ u row, db'.row? u = some row → db.Holds c row.id → db.row? u = some row
  unmarked : c = 0 → ∀ u row, db'.row? u = some row → row.status = .compensated →
    db.row? u = some row
  renamed : c = 0 → ∀ u row row', db.row? u = some row → row.status = .compensated →
    db'.row? u = some row' → row' = row ∨ row'.status = .persisted ∧ row'.id ≠ row.id

theorem Rely.refl (c : ℕ) (db : Db) : Rely c db db where
  evolves := .refl db
  hashtext := rfl
  tx := rfl
  locked _ _ := rfl
  keyed _ _ h _ := h
  unmarked _ _ _ h _ := h
  renamed _ _ _ _ h _ h' := .inl (Option.some.inj (h'.symm.trans h))

theorem Rely.holds (h : Rely c db db') {id : String} : db'.Holds c id ↔ db.Holds c id :=
  holds_congr h.tx h.hashtext

theorem Rely.holdsRow (h : Rely c db db') : db'.HoldsRow c u ↔ db.HoldsRow c u := by
  unfold HoldsRow; rw [h.tx]

theorem Rely.trans (h : Rely c db db') (h' : Rely c db' db'') : Rely c db db'' where
  evolves := h.evolves.trans h'.evolves
  hashtext := h'.hashtext.trans h.hashtext
  tx := h'.tx.trans h.tx
  locked u hu := (h'.locked u (h.holdsRow.2 hu)).trans (h.locked u hu)
  keyed u row hr hk := h.keyed u row (h'.keyed u row hr (h.holds.2 hk)) hk
  unmarked hc u row hr hs := h.unmarked hc u row (h'.unmarked hc u row hr hs) hs
  renamed hc u row row'' hr hs hr'' := by
    obtain ⟨row', hr'⟩ := Option.isSome_iff_exists.1 (h.evolves.grows u (by simp [hr]))
    rcases h.renamed hc u row row' hr hs hr' with rfl | ⟨hp, hne⟩
    · exact h'.renamed hc u _ row'' hr' hs hr''
    · -- a persisted row stays as it is
      obtain rfl := Option.some.inj (hr''.symm.trans (h'.evolves.keeps u row' hr' hp))
      exact .inr ⟨hp, hne⟩

theorem Rely.rowIs_persisted (h : Rely c db db') {id : String} (hr : db.RowIs u id .persisted) :
    db'.RowIs u id .persisted := by
  obtain ⟨row, hrow, hid, hs⟩ := hr
  exact ⟨row, h.evolves.keeps u row hrow hs, hid, hs⟩

/-- **Rely from guarantee**: a statement of another client is within what `c` relies on. -/
theorem Rely.exec (h : db.RepoInv) {st : Statement} {r : Except Failure st.Res}
    (he : db.exec d st = some (r, db')) (hcd : c ≠ d) : Rely c db db' := by
  obtain ⟨hhash, htxs, -⟩ := exec_frame he
  refine ⟨.exec h.wf he, hhash, htxs c hcd, fun u hu => ?_, fun u row hr hk => ?_,
    fun hc u row hr hs => ?_, fun hc u row row' hr hs hr' => ?_⟩
  · rcases h.wf.row?_exec he u with e | ⟨-, w, hw, rfl, -⟩
    · exact e
    · -- a commit on a locked row would need the row lock, or find no row to lock
      obtain ⟨t, ht, hrow⟩ := hu
      obtain ⟨t', ht', htw⟩ := exists_tx_of_pending hw
      cases w with
      | insert row =>
        have hsome := (h.wf.txs c t ht).locked _ hrow
        rw [show db.row? (Write.insert row).row.userId = none from
          (h.wf.txs d t' ht').inserted row htw] at hsome
        cases hsome
      | update row =>
        exact absurd ((h.wf.txs d t' ht').updated row htw).1
          ((h.wf.txs c t ht).rows d t' (Ne.symm hcd) ht' _ hrow)
  · rcases h.wf.row?_exec he u with e | ⟨-, w, hw, rfl, hrow⟩
    · rw [← e]; exact hr
    · obtain rfl := Option.some.inj (hr.symm.trans hrow)
      exact absurd (h.wf.holds_unique hk (h.keyed d w hw)) hcd
  · rcases h.wf.row?_exec he u with e | ⟨-, w, hw, rfl, hrow⟩
    · rw [← e]; exact hr
    · obtain rfl := Option.some.inj (hr.symm.trans hrow)
      rw [h.persists d w (by omega) hw] at hs
      cases hs
  · rcases h.wf.row?_exec he u with e | ⟨-, w, hw, rfl, hrow⟩
    · exact .inl (Option.some.inj (hr'.symm.trans (e.trans hr)))
    · obtain rfl := Option.some.inj (hr'.symm.trans hrow)
      refine .inr ⟨h.persists d w (by omega) hw, ?_⟩
      obtain ⟨t', ht', htw⟩ := exists_tx_of_pending hw
      cases w with
      | insert row'' =>
        have hn := (h.wf.txs d t' ht').inserted row'' htw
        cases hn.symm.trans hr
      | update row'' =>
        obtain ⟨old, hold, hne⟩ := h.renames d row'' hw
        obtain rfl := Option.some.inj (hold.symm.trans hr)
        exact Ne.symm hne

/-- The `sales` table takes no part in the lock discipline. -/
theorem RepoInv.setSales (h : db.RepoInv) (sales : List SaleRow) :
    RepoInv { db with sales } := by
  refine ⟨⟨h.wf.users, fun c tx ht => ?_⟩, h.keyed, h.persists, h.marks, h.renames⟩
  have ht := h.wf.txs c tx ht
  exact ⟨ht.advisory, ht.rows, ht.writes, ht.locked, ht.inserted, ht.updated⟩

theorem Rely.setSales (c : ℕ) (db : Db) (sales : List SaleRow) : Rely c db { db with sales } := by
  have h := Rely.refl c db
  exact ⟨.of_orders rfl, rfl, rfl, h.locked, h.keyed, h.unmarked, h.renamed⟩

theorem mem_take_orders (h : (db.orders.map (·.userId)).Nodup) {row : DurableOrder}
    (hrow : row ∈ db.orders) {n : ℕ} :
    row ∈ db.orders.take n ↔ row.userId ∈ (db.orders.map (·.userId)).take n := by
  rw [← List.map_take]
  refine ⟨List.mem_map_of_mem, fun hm => ?_⟩
  obtain ⟨row', hrow', e⟩ := List.mem_map.1 hm
  rwa [← List.inj_on_of_nodup_map h (List.mem_of_mem_take hrow') hrow e]

/-- A marker was there before. -/
theorem Rely.mem_marks (hr : Rely 0 db db') (h : db'.WF) {row : DurableOrder}
    (hrow : row ∈ db'.orders) (hst : row.status = .compensated) : row ∈ db.orders :=
  mem_orders_of_row? (hr.unmarked rfl _ row (h.row?_of_mem hrow rfl) hst)

/-- A marker among the first `n` rows was among them before. -/
theorem Rely.mem_take (hr : Rely 0 db db') (h : db'.WF) {row : DurableOrder} {n : ℕ}
    (hrow : row ∈ db'.orders.take n) (hst : row.status = .compensated) :
    row ∈ db.orders.take n := by
  have hm := List.mem_of_mem_take hrow
  have hold := hr.mem_marks h hm hst
  exact (mem_take_orders (h.users.sublist hr.evolves.order) hold).2 (Paging.mem_take_of_sublist
    hr.evolves.order h.users (List.mem_map_of_mem hold) ((mem_take_orders h.users hm).1 hrow))

/-- A persisted row stays in the table. -/
theorem Rely.mem_persisted (hr : Rely c db db') (h : db'.WF) {row : DurableOrder}
    (hrow : row ∈ db.orders) (hst : row.status = .persisted) : row ∈ db'.orders :=
  mem_orders_of_row? (hr.evolves.keeps _ row
    (row?_of_mem_orders (h.users.sublist hr.evolves.order) hrow) hst)

end Db

end FlashSale
