import FlashSale.Lib.Prog
import FlashSale.Redis.Scripts
import FlashSale.Worker.Jobs
import FlashSale.Worker.Postgres

/-!
# The calls of the worker into Redis, BullMQ and Postgres

`Stores` is everything outside the worker's own programs, and `Call` is one round trip to it, an
atomic step. A round trip can also fail: nothing happened, or it happened and the answer was lost
(`Fault`). `WorkerM` is the type of the worker's programs.
-/

namespace FlashSale

open Redis

/-- The Redis keys of every sale, the clock of Redis and the buckets of its hash tables, the orders
queue, the database, and the field `failedScanOffset` of the reconciliation service. -/
structure Stores where
  sales : String → Sale
  time : RedisTime
  ledgerBucket : String → ℕ
  buyerBucket : String → ℕ
  queue : JobQueue
  db : Db
  failedScanOffset : ℕ

def Stores.setSale (s : Stores) (saleId : String) (sale : Sale) : Stores :=
  { s with sales := Function.update s.sales saleId sale }

inductive Call where
  -- Redis
  | seed (saleId : String) (cfg : SaleConfig) (stockRemaining : ℤ)
  | compensate (saleId userId reservationId : String)
  | compareRestore (saleId userId reservationId : String) (reservedAtMs : ℕ)
  | reconcileMembership (saleId userId : String)
  | reconcileState (saleId : String)
  | status (saleId : String)
  | inspect (saleId userId : String)
  | hget (saleId userId : String)
  | hscan (saleId : String) (cursor count : ℕ)
  | sscan (saleId : String) (cursor count : ℕ)
  -- BullMQ
  | getJob (id : String)
  | getState (id : String)
  | getRange (state : JobState) (start stop : ℕ)
  | countJobs (state : JobState)
  | addJob (id name : String) (data : JsValue) (attempts : ℕ)
  | removeJob (job : Job)
  | pause
  | isPaused
  -- Postgres
  | sql (client : ℕ) (st : Statement)
  | getByUser (userId : String)
  | listSaleOrders (saleId : String) (offset limit : ℕ)
  | insertSale (row : SaleRow)
  | selectSale (saleId : String)
  -- the memory of the service
  | getFailedScanOffset
  | setFailedScanOffset (offset : ℕ)

@[reducible] def Call.Res : Call → Type
  | .seed _ _ _ => SeedReply
  | .compensate _ _ _ => CompensateReply
  | .compareRestore _ _ _ _ => CompareRestoreOutcome × String
  | .reconcileMembership _ _ => Membership
  | .reconcileState _ => ReconcileStateReply
  | .status _ => StatusReply
  | .inspect _ _ => MembershipInspection × String
  | .hget _ _ => Option String
  | .hscan _ _ _ => ℕ × List (String × String)
  | .sscan _ _ _ => ℕ × List String
  | .getJob _ => Option Job
  | .getState _ => JobState
  | .getRange _ _ _ => List String
  | .countJobs _ => ℕ
  | .addJob _ _ _ _ => Job
  | .removeJob _ => Unit
  | .pause => Unit
  | .isPaused => Bool
  | .sql _ st => st.Res
  | .getByUser _ => Option DurableOrder
  | .listSaleOrders _ _ _ => List DurableOrder
  | .insertSale _ => Unit
  | .selectSale _ => Option SaleRow
  | .getFailedScanOffset => ℕ
  | .setFailedScanOffset _ => Unit

/-- A program of the worker. -/
abbrev WorkerM (α : Type) : Type := Prog Call Call.Res Failure α

/-- The program of one call. -/
def request (o : Call) : WorkerM o.Res := Prog.call o

namespace Stores

/-- The sale after a script, with the script's reply. -/
def script (s : Stores) (saleId : String) {α : Type} (r : α × Sale) :
    Option (Except Failure α × Stores) :=
  some (.ok r.1, s.setSale saleId r.2)

def read (s : Stores) {α : Type} (a : α) : Option (Except Failure α × Stores) := some (.ok a, s)

/-- `HSCAN` of the reservations. -/
def hscanPage (s : Stores) (saleId : String) (cursor count : ℕ) : ℕ × List (String × String) :=
  let ledger := (s.sales saleId).reservations
  let (next, keys) := scanPage s.ledgerBucket ledger.keys cursor count
  (next, keys.filterMap fun k => (ledger.hget k).map (k, ·))

theorem hscanPage_mem {s : Stores} {saleId u v : String} {cursor count : ℕ}
    (h : (u, v) ∈ (s.hscanPage saleId cursor count).2) :
    (s.sales saleId).reservations.hget u = some v := by
  obtain ⟨k, -, hk⟩ := List.mem_filterMap.1 h
  obtain ⟨w, hw, e⟩ := Option.map_eq_some_iff.1 hk
  obtain ⟨rfl, rfl⟩ := Prod.mk.inj e
  exact hw

/-- A page of the rows of a sale in the order of `user_id`. -/
def ordersPage (s : Stores) (saleId : String) (offset limit : ℕ) : List DurableOrder :=
  ((s.db.orders.filter (·.saleId = saleId)).drop offset).take limit

/-- One call; `none` while it waits for another transaction. -/
def perform (s : Stores) : (o : Call) → Option (Except Failure o.Res × Stores)
  | .seed saleId cfg stock => s.script saleId (seed (s.sales saleId) cfg stock)
  | .compensate saleId u r => s.script saleId (compensate (s.sales saleId) u r)
  | .compareRestore saleId u r t =>
    s.script saleId (compareRestoreReservation (s.sales saleId) u r t)
  | .reconcileMembership saleId u => s.script saleId (reconcileMembership (s.sales saleId) u)
  | .reconcileState saleId => s.script saleId (reconcileState (s.sales saleId))
  | .status saleId => s.read (statusScript (s.sales saleId) s.time)
  | .inspect saleId u => s.read (inspectMembership (s.sales saleId) u)
  | .hget saleId u => s.read ((s.sales saleId).reservations.hget u)
  | .hscan saleId cursor count => s.read (s.hscanPage saleId cursor count)
  | .sscan saleId cursor count =>
    s.read (scanPage s.buyerBucket (s.sales saleId).buyers.keys cursor count)
  | .getJob id => s.read (s.queue.getJob id)
  | .getState id => s.read (s.queue.getState id)
  | .getRange state start stop => s.read (s.queue.getRange state start stop)
  | .countJobs state => s.read (s.queue.count state)
  | .addJob id name data attempts =>
    some (.ok (s.queue.newJob id name data attempts),
      { s with queue := s.queue.add id name data attempts })
  | .removeJob job =>
    some ((s.queue.remove job.id).1, { s with queue := (s.queue.remove job.id).2 })
  | .pause => some (.ok (), { s with queue := { s.queue with paused := true } })
  | .isPaused => s.read s.queue.paused
  | .sql client st => (s.db.exec client st).map fun q => (q.1, { s with db := q.2 })
  | .getByUser u => s.read (s.db.row? u)
  | .listSaleOrders saleId offset limit => s.read (s.ordersPage saleId offset limit)
  | .insertSale row =>
    some (.ok (), if s.db.saleExists row.id then s
      else { s with db := { s.db with sales := s.db.sales ++ [row] } })
  | .selectSale saleId => s.read (s.db.sales.find? (·.id == saleId))
  | .getFailedScanOffset => s.read s.failedScanOffset
  | .setFailedScanOffset offset => some (.ok (), { s with failedScanOffset := offset })

/-- The stores as they answer a program that runs alone. -/
abbrev answer (o : Call) (s : Stores) : Option (Except Failure o.Res × Stores) := s.perform o

end Stores

/-! ## Faults -/

/-- What goes wrong with a round trip. -/
inductive Fault where
  | none
  | before
  | after
  deriving DecidableEq, Repr

/-- The call reads or writes the memory of the worker itself, which does not fail. -/
def Call.isLocal : Call → Bool
  | .getFailedScanOffset | .setFailedScanOffset _ => true
  | _ => false

/-- A lost connection rolls the transaction back on the server. -/
def Call.isRollback : Call → Bool
  | .sql _ .rollback => true
  | _ => false

/-- One call with a fault: it never reached the store, or its answer was lost. -/
def Stores.performWith (s : Stores) (fault : Fault) (o : Call) :
    Option (Except Failure o.Res × Stores) :=
  match fault with
  | .none => s.perform o
  | .before =>
    if o.isLocal then s.perform o
    else if o.isRollback then (s.perform o).map fun q => (.error .upstream, q.2)
    else some (.error .upstream, s)
  | .after => if o.isLocal then s.perform o else (s.perform o).map fun q => (.error .upstream, q.2)

/-- What a call can do, faults included: its effect takes place or, unless it is a rollback,
nothing happens and it fails. -/
theorem Stores.performWith_cases {s s' : Stores} {fault : Fault} {o : Call}
    {r : Except Failure o.Res} (h : s.performWith fault o = some (r, s')) :
    (∃ r', s.perform o = some (r', s') ∧ (r = r' ∨ r = .error .upstream)) ∨
      (r = .error .upstream ∧ s' = s ∧ o.isRollback = false) := by
  have hmap : ∀ {x : Option (Except Failure o.Res × Stores)},
      x.map (fun q => (.error .upstream, q.2)) = some (r, s') →
        ∃ r', x = some (r', s') ∧ (r = r' ∨ r = .error .upstream) := by
    intro x hx
    obtain ⟨⟨r', t⟩, rfl, e⟩ := Option.map_eq_some_iff.1 hx
    obtain ⟨rfl, rfl⟩ := Prod.mk.inj e
    exact ⟨r', rfl, .inr rfl⟩
  unfold performWith at h
  cases fault with
  | none => exact .inl ⟨r, h, .inl rfl⟩
  | before =>
    dsimp only at h
    split_ifs at h with hlocal hrb
    · exact .inl ⟨r, h, .inl rfl⟩
    · exact .inl (hmap h)
    · obtain ⟨rfl, rfl⟩ := Prod.mk.inj (Option.some.inj h)
      exact .inr ⟨rfl, rfl, by simpa using hrb⟩
  | after =>
    dsimp only at h
    split_ifs at h with hlocal
    · exact .inl ⟨r, h, .inl rfl⟩
    · exact .inl (hmap h)

/-- A call that answers took effect. -/
theorem Stores.performWith_ok {s s' : Stores} {fault : Fault} {o : Call} {a : o.Res}
    (h : s.performWith fault o = some (.ok a, s')) : s.perform o = some (.ok a, s') := by
  rcases performWith_cases h with ⟨r', hp, hr | hr⟩ | ⟨hr, -, -⟩
  · rw [hr]; exact hp
  · cases hr
  · cases hr

/-- A read answers what it read or fails, and changes nothing. -/
theorem Stores.performWith_read {s s' : Stores} {fault : Fault} {o : Call} {a : o.Res}
    (hread : s.perform o = some (.ok a, s)) {r : Except Failure o.Res}
    (h : s.performWith fault o = some (r, s')) : s' = s ∧ (r = .ok a ∨ r = .error .upstream) := by
  rcases performWith_cases h with ⟨r', hp, hr⟩ | ⟨hr, hs, -⟩
  · obtain ⟨rfl, rfl⟩ := Prod.mk.inj (Option.some.inj (hread.symm.trans hp))
    exact ⟨rfl, hr⟩
  · exact ⟨hs, .inr hr⟩

end FlashSale
