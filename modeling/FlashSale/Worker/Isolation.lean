import FlashSale.Lib.Erasure
import FlashSale.Worker.Locks
import FlashSale.Worker.QueueRepair

/-!
# The data of one sale

The queue and the orders table are shared by all sales. `Stores.only` erases what belongs to other
sales, and this file says which calls of the worker do not notice: the scripts of the sale, a lookup
in the queue as long as no other sale has a job under the id, and the statements of a resolution as
long as no other sale has a row of the same user or with the id that is written.
-/

namespace FlashSale

/-! ## Erasing the other sales -/

/-- The payload of the job names the sale. -/
def Job.ofSale (saleId : String) (job : Job) : Bool :=
  match assertOrdersQueueJobPayload job.data with
  | .ok payload => payload.saleId == saleId
  | .error _ => false

theorem Job.ofSale_iff {saleId : String} {job : Job} : job.ofSale saleId = true ↔
    ∃ p, assertOrdersQueueJobPayload job.data = .ok p ∧ p.saleId = saleId := by
  unfold Job.ofSale
  cases assertOrdersQueueJobPayload job.data with
  | error e => simp
  | ok p => simp

/-- The jobs of one sale. -/
def JobQueue.only (saleId : String) (q : JobQueue) : JobQueue :=
  { q with jobs := q.jobs.filter (·.job.ofSale saleId) }

/-- The rows of one sale. -/
def Db.only (saleId : String) (db : Db) : Db :=
  { db with
    orders := db.orders.filter (·.saleId == saleId)
    sales := db.sales.filter (·.id == saleId) }

/-- The data of one sale. -/
def Stores.only (saleId : String) (s : Stores) : Stores :=
  { s with
    sales := fun id => if id = saleId then s.sales id else Sale.empty
    queue := s.queue.only saleId
    db := s.db.only saleId }

/-- The data of one sale, without the place where the next sweep goes on: other sales move it too,
as all failed jobs are one list. -/
def Stores.view (saleId : String) (s : Stores) : Stores :=
  { s.only saleId with failedScanOffset := 0 }

theorem Stores.view_only (saleId : String) (s : Stores) :
    (s.only saleId).view saleId = s.view saleId := by
  unfold view only JobQueue.only Db.only
  dsimp only
  rw [List.filter_filter, List.filter_filter, List.filter_filter]
  simp only [Bool.and_self]
  congr 1
  funext id
  split_ifs
  · rfl
  · rfl

/-! ## The queue -/

namespace JobQueue

variable {q : JobQueue} {saleId id : String}

/-- Only jobs of the sale are stored under the id. -/
def Owns (q : JobQueue) (saleId id : String) : Prop :=
  ∀ st ∈ q.jobs, st.job.id = id → st.job.ofSale saleId = true

theorem find_only (h : q.Owns saleId id) : (q.only saleId).find id = q.find id := by
  unfold find only
  rw [List.find?_filter]
  unfold Owns at h
  generalize q.jobs = jobs at h
  induction jobs with
  | nil => rfl
  | cons st jobs ih =>
    have ih := ih fun x hx => h x (by simp [hx])
    by_cases he : st.job.id = id
    · rw [List.find?_cons_of_pos (by simp [h st (by simp) he, he]),
        List.find?_cons_of_pos (by simpa using he)]
    · rw [List.find?_cons_of_neg (by simp [he]), List.find?_cons_of_neg (by simpa using he), ih]

theorem add_only {name : String} {data : JsValue} {attempts : ℕ} (h : q.Owns saleId id)
    (hnew : (q.newJob id name data attempts).ofSale saleId = true) :
    (q.add id name data attempts).only saleId = (q.only saleId).add id name data attempts := by
  unfold add
  rw [find_only h]
  split_ifs
  · rfl
  · unfold only
    dsimp only
    rw [List.filter_append, List.filter_cons_of_pos (by simpa using hnew)]
    rfl

theorem erase_only (q : JobQueue) (saleId id : String) :
    (q.erase id).only saleId = (q.only saleId).erase id := by
  unfold erase only
  dsimp only
  rw [List.filter_filter, List.filter_filter]
  congr 2
  funext st
  exact Bool.and_comm _ _

theorem remove_only (h : q.Owns saleId id) :
    (q.only saleId).remove id = ((q.remove id).1, (q.remove id).2.only saleId) := by
  unfold remove
  rw [find_only h]
  cases q.find id with
  | none => rfl
  | some st =>
    dsimp only
    split_ifs
    · rfl
    · rw [erase_only]

theorem Distinct.only (h : q.Distinct) (saleId : String) : (q.only saleId).Distinct :=
  h.sublist (List.filter_sublist.map _)

end JobQueue

/-! ## The tables -/

namespace Db

variable {db db' : Db} {saleId : String} {c : ℕ} {u : String}

theorem tx?_only : (db.only saleId).tx? c = db.tx? c := rfl

theorem others_only {p : Tx → Bool} : (db.only saleId).others c p = db.others c p := rfl

theorem hashtext_only : (db.only saleId).hashtext = db.hashtext := rfl

/-- No row of another sale is that of the user. -/
def OwnsUser (db : Db) (saleId u : String) : Prop :=
  ∀ row ∈ db.orders, row.userId = u → row.saleId = saleId

theorem row?_only (h : db.OwnsUser saleId u) : (db.only saleId).row? u = db.row? u := by
  unfold row? only
  dsimp only
  rw [List.find?_filter]
  unfold OwnsUser at h
  generalize db.orders = rows at h
  induction rows with
  | nil => rfl
  | cons row rows ih =>
    have ih := ih fun x hx => h x (by simp [hx])
    by_cases he : row.userId = u
    · rw [List.find?_cons_of_pos (by simp [h row (by simp) he, he]),
        List.find?_cons_of_pos (by simpa using he)]
    · rw [List.find?_cons_of_neg (by simp [he]), List.find?_cons_of_neg (by simpa using he), ih]

/-- The row of a user, if it is one of the sale. -/
theorem row?_only_eq_filter (h : (db.orders.map (·.userId)).Nodup) (u : String) :
    (db.only saleId).row? u = (db.row? u).filter fun row => row.saleId = saleId := by
  cases hrow : (db.only saleId).row? u with
  | some row =>
    have hm := List.mem_filter.1 (mem_orders_of_row? hrow)
    have hu := row?_userId hrow
    have hrow' := row?_of_mem_orders h hm.1
    rw [hu] at hrow'
    rw [hrow', Option.filter_some_pos (by simpa using hm.2)]
  | none =>
    cases hrow' : db.row? u with
    | none => rfl
    | some row =>
      have hs : row.saleId ≠ saleId := by
        intro hs
        exact row?_eq_none.1 hrow row
          (List.mem_filter.2 ⟨mem_orders_of_row? hrow', by simpa using hs⟩) (row?_userId hrow')
      rw [Option.filter_some_neg (by simpa using hs)]

theorem saleExists_only : (db.only saleId).saleExists saleId = db.saleExists saleId := by
  unfold saleExists only
  dsimp only
  rw [List.any_filter]
  simp

/-- No row of another sale has the id. -/
def OwnsId (db : Db) (saleId id : String) : Prop :=
  ∀ row ∈ db.orders, row.id = id → row.saleId = saleId

theorem idTaken_only {row : DurableOrder} (h : db.OwnsId saleId row.id) :
    (db.only saleId).idTaken row = db.idTaken row := by
  unfold idTaken only
  dsimp only
  rw [List.any_filter, Bool.eq_iff_iff, List.any_eq_true, List.any_eq_true]
  constructor
  · rintro ⟨old, hold, hp⟩
    rw [Bool.and_eq_true] at hp
    exact ⟨old, hold, hp.2⟩
  · rintro ⟨old, hold, hp⟩
    refine ⟨old, hold, ?_⟩
    have hid : old.id = row.id := by
      rw [Bool.and_eq_true] at hp
      simpa using hp.1
    rw [hp, h old hold hid]
    simp

/-- The rows in the order of their users. -/
def Sorted (db : Db) : Prop := (db.orders.map (·.userId)).Pairwise (· ≤ ·)

theorem Sorted.apply (h : db.Sorted) (w : Write) : (db.apply w).Sorted := by
  unfold Sorted at *
  cases w with
  | insert row =>
    rw [users_apply_insert]
    exact List.Pairwise.orderedInsert _ _ h
  | update row =>
    rw [users_apply_update]
    exact h

theorem filter_orderedInsert {rows : List DurableOrder} {row : DurableOrder}
    (hsorted : (rows.map (·.userId)).Pairwise (· ≤ ·)) (hrow : row.saleId = saleId) :
    (rows.orderedInsert (·.userId ≤ ·.userId) row).filter (·.saleId == saleId) =
      (rows.filter (·.saleId == saleId)).orderedInsert (·.userId ≤ ·.userId) row := by
  induction rows with
  | nil => simp [hrow]
  | cons old rows ih =>
    rw [List.map_cons, List.pairwise_cons] at hsorted
    have ih := ih hsorted.2
    rw [List.orderedInsert_cons]
    split_ifs with hle
    · -- the new row stands before every row that is kept
      rw [List.filter_cons_of_pos (by simpa using hrow)]
      have hfirst : ∀ x ∈ (old :: rows).filter (·.saleId == saleId), row.userId ≤ x.userId := by
        intro x hx
        rcases List.mem_cons.1 (List.mem_filter.1 hx).1 with rfl | hx
        · exact hle
        · exact String.le_trans hle (hsorted.1 x.userId (List.mem_map.2 ⟨x, hx, rfl⟩))
      cases hf : (old :: rows).filter (·.saleId == saleId) with
      | nil => rfl
      | cons x xs =>
        rw [List.orderedInsert_cons, if_pos (hfirst x (by rw [hf]; simp))]
    · by_cases hold : old.saleId = saleId
      · rw [List.filter_cons_of_pos (by simpa using hold),
          List.filter_cons_of_pos (by simpa using hold), List.orderedInsert_cons, if_neg hle, ih]
      · rw [List.filter_cons_of_neg (by simpa using hold),
          List.filter_cons_of_neg (by simpa using hold), ih]

/-- A committed write of the sale. -/
theorem apply_only (hsorted : db.Sorted) {w : Write} (hw : w.row.saleId = saleId)
    (hown : db.OwnsUser saleId w.row.userId) :
    (db.apply w).only saleId = (db.only saleId).apply w := by
  cases w with
  | insert row =>
    unfold apply only
    dsimp only
    rw [filter_orderedInsert hsorted (show row.saleId = saleId from hw)]
  | update row =>
    unfold apply only
    dsimp only
    unfold OwnsUser at hown
    congr 1
    generalize db.orders = rows at hown
    induction rows with
    | nil => rfl
    | cons old rows ih =>
      have ih := ih fun x hx => hown x (by simp [hx])
      rw [List.map_cons]
      by_cases he : old.userId = row.userId
      · have hold : old.saleId = saleId := hown old (by simp) he
        have hrow : row.saleId = saleId := hw
        rw [if_pos he, List.filter_cons_of_pos (by simpa using hrow),
          List.filter_cons_of_pos (by simpa using hold), List.map_cons, if_pos he, ih]
      · rw [if_neg he]
        by_cases hold : old.saleId = saleId
        · rw [List.filter_cons_of_pos (by simpa using hold),
            List.filter_cons_of_pos (by simpa using hold), List.map_cons, if_neg he, ih]
        · rw [List.filter_cons_of_neg (by simpa using hold),
            List.filter_cons_of_neg (by simpa using hold), ih]

/-! ## Statements -/

/-- What a pending write needs to be one of the sale. -/
structure Owned (db : Db) (saleId : String) (w : Write) : Prop where
  sale : w.row.saleId = saleId
  user : db.OwnsUser saleId w.row.userId

variable {p : OrdersQueueJobPayload} {tx : Tx}

/-- The effect of a statement on the data of one sale. -/
def onOnly (saleId : String) {α : Type} (q : Option (Except Failure α × Db)) :
    Option (Except Failure α × Db) :=
  q.map fun x => (x.1, x.2.only saleId)

theorem write_only {w : Write} {α : Type} {a : α} (hsale : w.row.saleId = saleId)
    (hid : db.OwnsId saleId w.row.id) :
    (db.only saleId).write c tx w a = onOnly saleId (db.write c tx w a) := by
  unfold write
  rw [others_only, idTaken_only hid, hsale, saleExists_only]
  split_ifs
  · rfl
  · rfl
  · rfl

theorem guardedUpdate_only {status : DurableOrderStatus} {id : String}
    (huser : db.OwnsUser p.saleId p.userId) (hid : db.OwnsId p.saleId (pgUuid p.reservationId)) :
    (db.only p.saleId).guardedUpdate c tx p status id =
      onOnly p.saleId (db.guardedUpdate c tx p status id) := by
  unfold guardedUpdate
  rw [row?_only huser, others_only]
  cases db.row? p.userId with
  | none => rfl
  | some old =>
    dsimp only
    split_ifs
    · rfl
    · rfl
    · rfl
    · exact write_only rfl hid

/-- The statements of a resolution, for the payload of the sale. -/
inductive Resolves (p : OrdersQueueJobPayload) : Statement → Prop
  | begin : Resolves p .begin
  | lock : Resolves p (.lockReservation p.reservationId)
  | select : Resolves p (.selectUserForUpdate p.userId)
  | insert : Resolves p (.insertMarker p)
  | update (id : String) : Resolves p (.updateMarker p id)
  | commit : Resolves p .commit
  | rollback : Resolves p .rollback

/-- The statement writes the marker of a compensated order. -/
def Marks : Statement → Bool
  | .insertMarker _ | .updateMarker _ _ => true
  | _ => false

/-- **Statements.** A resolution runs on the data of its sale as on the whole tables, if no other sale
has a row of the user, and none with the id of a marker that is written. -/
theorem exec_only {st : Statement} (hst : Resolves p st) (huser : db.OwnsUser p.saleId p.userId)
    (hid : Marks st = true → db.OwnsId p.saleId (pgUuid p.reservationId)) (hsorted : db.Sorted)
    (hpending : ∀ w, db.pending c = some w → db.Owned p.saleId w) :
    (db.only p.saleId).exec c st = onOnly p.saleId (db.exec c st) := by
  cases hst with
  | begin =>
    unfold exec
    rw [tx?_only]
    cases db.tx? c with
    | none => rfl
    | some t => rfl
  | lock =>
    unfold exec
    rw [tx?_only]
    cases db.tx? c with
    | none => rfl
    | some t =>
      dsimp only
      rw [others_only, hashtext_only]
      split_ifs
      · rfl
      · rfl
  | select =>
    unfold exec
    rw [tx?_only]
    dsimp only
    rw [row?_only huser]
    cases db.tx? c with
    | none => rfl
    | some t =>
      cases db.row? p.userId with
      | none => rfl
      | some old =>
        dsimp only
        rw [others_only]
        split_ifs
        · rfl
        · rfl
  | insert =>
    unfold exec
    rw [tx?_only]
    dsimp only
    rw [row?_only huser]
    cases db.tx? c with
    | none => rfl
    | some t =>
      dsimp only
      rw [others_only]
      split_ifs
      · rfl
      · rfl
      · rfl
      · exact write_only rfl (hid rfl)
  | update id =>
    unfold exec
    rw [tx?_only]
    cases db.tx? c with
    | none => rfl
    | some t => exact guardedUpdate_only huser (hid rfl)
  | commit =>
    unfold exec
    rw [tx?_only]
    cases ht : db.tx? c with
    | none => rfl
    | some t =>
      cases hw : t.write with
      | none => simp only [hw]; rfl
      | some w =>
        have hown := hpending w (by simp [pending, ht, hw])
        simp only [hw]
        show some (_, ((db.only p.saleId).apply w).endTx c) =
          some (_, ((db.apply w).endTx c).only p.saleId)
        rw [← apply_only hsorted hown.sale hown.user]
        rfl
  | rollback => rfl

theorem Sorted.exec (h : db.Sorted) {st : Statement} {r : Except Failure st.Res}
    (he : db.exec c st = some (r, db')) : db'.Sorted := by
  rcases (exec_frame he).2.2 with rfl | e
  · obtain ⟨-, ⟨-, rfl⟩ | ⟨t, -, rfl⟩⟩ := exec_commit he
    · exact h
    · cases hw : t.write with
      | none => exact h
      | some w => exact h.apply w
  · unfold Sorted
    rw [e]
    exact h

/-- A resolution leaves only writes of its sale pending. -/
theorem owned_exec {st : Statement} (hst : Resolves p st) (huser : db.OwnsUser p.saleId p.userId)
    (hpending : ∀ w, db.pending c = some w → db.Owned p.saleId w) {r : Except Failure st.Res}
    (he : db.exec c st = some (r, db')) :
    ∀ w, db'.pending c = some w → db'.Owned p.saleId w := by
  have hsame : ∀ {tx t : Tx}, db.tx? c = some tx → t.write = tx.write →
      ∀ w, (db.setTx c t).pending c = some w → (db.setTx c t).Owned p.saleId w := by
    intro tx t htx ht w hw
    unfold pending at hw
    rw [tx?_setTx_self] at hw
    have hold := hpending w (by unfold pending; rw [htx]; exact ht.symm.trans hw)
    exact ⟨hold.sale, hold.user⟩
  have hnew : ∀ {t : Tx} {w' : Write}, t.write = some w' → w'.row.saleId = p.saleId →
      w'.row.userId = p.userId →
      ∀ w, (db.setTx c t).pending c = some w → (db.setTx c t).Owned p.saleId w := by
    intro t w' ht hs hu w hw
    unfold pending at hw
    rw [tx?_setTx_self] at hw
    obtain rfl := Option.some.inj (ht.symm.trans hw)
    exact ⟨hs, by rw [hu]; exact huser⟩
  have hend : ∀ {d : Db}, ∀ w, (d.endTx c).pending c = some w → (d.endTx c).Owned p.saleId w := by
    intro d w hw
    unfold pending at hw
    rw [tx?_endTx_self] at hw
    cases hw
  cases hst with
  | begin =>
    obtain ⟨-, ⟨-, rfl⟩ | ⟨-, rfl⟩⟩ := exec_begin he
    · exact hpending
    · intro w hw
      unfold pending at hw
      rw [tx?_setTx_self] at hw
      cases hw
  | lock =>
    rcases exec_lockReservation he with ⟨-, rfl⟩ | ⟨tx, htx, -, -, rfl⟩
    · exact hpending
    · exact hsame htx rfl
  | select =>
    rcases exec_selectUserForUpdate he with ⟨-, rfl⟩ | ⟨-, -, rfl⟩ | ⟨tx, row, htx, -, -, -, rfl⟩
    · exact hpending
    · exact hpending
    · exact hsame htx rfl
  | insert =>
    rcases exec_insertMarker he with ⟨-, rfl⟩ | ⟨tx, -, -, -, -, -, -, rfl⟩
    · exact hpending
    · exact hnew rfl rfl rfl
  | update id =>
    rcases exec_updateMarker he with ⟨-, rfl⟩ | ⟨tx, old, -, -, -, -, -, -, -, -, -, rfl⟩
    · exact hpending
    · exact hnew rfl rfl rfl
  | commit =>
    obtain ⟨-, ⟨-, rfl⟩ | ⟨t, -, rfl⟩⟩ := exec_commit he
    · exact hpending
    · exact hend
  | rollback =>
    obtain ⟨-, rfl⟩ := exec_rollback he
    exact hend

end Db

end FlashSale
