import FlashSale.Redis.SaleStore
import FlashSale.Worker.Calls

/-!
# `SaleRedisStore` and `OrderRepository` as programs of the worker

The methods with the checks before a call and the decoding after it, and the two transactions on
the orders table: `persist` for a delivered job and `resolveFailed` for a job that failed for good.
A transaction belongs to a client, one connection of the pool.
-/

namespace FlashSale

/-! ## Store methods -/

namespace Store

/-- `compensate.lua`. -/
def compensate (saleId userId reservationId : String) : WorkerM CompensateReply := do
  Prog.ofExcept (assertSaleId saleId)
  request (.compensate saleId userId reservationId)

/-- `reconcile-state.lua`. -/
def reconcileStockFromReservations (saleId : String) : WorkerM ReconcileStateReply := do
  Prog.ofExcept (assertSaleId saleId)
  request (.reconcileState saleId)

/-- The ledger entry of a user. -/
def getReservation (saleId userId : String) : WorkerM (Option ReservationEntry) := do
  Prog.ofExcept (assertSaleId saleId)
  match ← request (.hget saleId userId) with
  | none => return none
  | some value => return some (← Prog.ofExcept (parseReservationEntry userId value))

/-- The decoded reply of `inspectReservationMembership`. -/
structure ReservationMembershipInspection where
  outcome : MembershipInspection
  reservation : Option ReservationEntry

/-- `decodeReservationMembershipInspection`. -/
def decodeReservationMembershipInspection (userId : String) (raw : MembershipInspection × String) :
    Except Failure ReservationMembershipInspection :=
  let reservationBearing := raw.1 = .both ∨ raw.1 = .reservationOnly
  if reservationBearing ↔ raw.2 = "" then
    .error (.error "SaleRedisStore: malformed reservation-membership tuple from Lua")
  else if reservationBearing then do
    return ⟨raw.1, some (← parseReservationEntry userId raw.2)⟩
  else .ok ⟨raw.1, none⟩

theorem decodeInspection_ok {u : String} {raw : MembershipInspection × String}
    {found : ReservationMembershipInspection}
    (h : decodeReservationMembershipInspection u raw = .ok found) :
    found.outcome = raw.1 ∧ ∀ entry, found.reservation = some entry →
      raw.2 ≠ "" ∧ parseReservationEntry u raw.2 = .ok entry := by
  unfold decodeReservationMembershipInspection at h
  dsimp only at h
  split_ifs at h with hiff hb
  · cases hp : parseReservationEntry u raw.2 with
    | error e => rw [hp] at h; cases h
    | ok entry =>
      rw [hp] at h
      obtain rfl := Except.ok.inj h
      refine ⟨rfl, ?_⟩
      rintro _ ⟨⟩
      exact ⟨fun e => hiff ⟨fun _ => e, fun _ => hb⟩, rfl⟩
  · obtain rfl := Except.ok.inj h
    exact ⟨rfl, by simp⟩

/-- `inspect-reservation-membership.lua`. -/
def inspectReservationMembership (saleId userId : String) :
    WorkerM ReservationMembershipInspection := do
  Prog.ofExcept (assertSaleId saleId)
  Prog.throwIf (isUserId userId = false) (.typeError "Invalid reservation-membership userId")
  let raw ← request (.inspect saleId userId)
  Prog.ofExcept (decodeReservationMembershipInspection userId raw)

/-- A page of the buyers set. -/
def scanBuyers (saleId : String) (cursor count : ℕ) : WorkerM (ℕ × List String) := do
  Prog.ofExcept (assertSaleId saleId)
  request (.sscan saleId cursor count)

/-- `reconcile-buyer-membership.lua`. -/
def reconcileBuyerMembership (saleId userId : String) : WorkerM Membership := do
  Prog.ofExcept (assertSaleId saleId)
  request (.reconcileMembership saleId userId)

/-- The input of `compareAndRestoreReservation`. -/
structure CompareRestoreReservationInput where
  userId : String
  reservationId : String
  reservedAtMs : ℕ

/-- `assertCompareRestoreReservationInput`. -/
def assertCompareRestoreReservationInput (input : CompareRestoreReservationInput) :
    Except Failure Unit :=
  if !isUserId input.userId then
    .error (.typeError "Invalid compare-and-restore reservation userId")
  else if !isUuid input.reservationId then
    .error (.typeError "Invalid compare-and-restore reservation reservationId")
  else if MAX_SAFE_INTEGER < input.reservedAtMs then
    .error (.typeError "Invalid compare-and-restore reservation reservedAtMs")
  else .ok ()

/-- `compare-restore-reservation.lua`. -/
def compareAndRestoreReservation (saleId : String) (input : CompareRestoreReservationInput) :
    WorkerM (CompareRestoreOutcome × ReservationEntry) := do
  Prog.ofExcept (assertSaleId saleId)
  Prog.ofExcept (assertCompareRestoreReservationInput input)
  let (outcome, value) ← request
    (.compareRestore saleId input.userId input.reservationId input.reservedAtMs)
  return (outcome, ← Prog.ofExcept (parseReservationEntry input.userId value))

/-- The entries of one page; one malformed value rejects the page. -/
def parseEntries (flat : List (String × String)) : Except Failure (List ReservationEntry) :=
  flat.mapM fun f => parseReservationEntry f.1 f.2

theorem parseEntries_mem {flat : List (String × String)} {entries : List ReservationEntry}
    (h : parseEntries flat = .ok entries) {e : ReservationEntry} (he : e ∈ entries) :
    ∃ f ∈ flat, parseReservationEntry f.1 f.2 = .ok e := by
  unfold parseEntries at h
  induction flat generalizing entries with
  | nil =>
    obtain rfl : entries = [] := by simpa [pure, Except.pure] using h.symm
    cases he
  | cons f flat ih =>
    rw [List.mapM_cons] at h
    cases hp : parseReservationEntry f.1 f.2 with
    | error x => rw [hp] at h; cases h
    | ok e' =>
      rw [hp] at h
      cases hm : List.mapM (fun f => parseReservationEntry f.1 f.2) flat with
      | error x => rw [hm] at h; cases h
      | ok rest =>
        rw [hm] at h
        obtain rfl : entries = e' :: rest := (Except.ok.inj h).symm
        rcases List.mem_cons.1 he with rfl | he
        · exact ⟨f, List.mem_cons_self, hp⟩
        · obtain ⟨f', hf', hp'⟩ := ih hm he
          exact ⟨f', List.mem_cons_of_mem _ hf', hp'⟩

/-- A page of the ledger. -/
def scanReservations (saleId : String) (cursor count : ℕ) :
    WorkerM (ℕ × List ReservationEntry) := do
  Prog.ofExcept (assertSaleId saleId)
  let (next, flat) ← request (.hscan saleId cursor count)
  return (next, ← Prog.ofExcept (parseEntries flat))

/-- `status.lua`. -/
def status (saleId : String) : WorkerM SaleSnapshot := do
  Prog.ofExcept (assertSaleId saleId)
  let raw ← request (.status saleId)
  Prog.ofExcept (decodeStatus raw)

/-- `seed` without the optional `stockRemaining`; the timestamps of `cfg` are parsed. -/
def seed (cfg : SaleConfig) : WorkerM SeedReply := do
  Prog.ofExcept (assertSaleId cfg.saleId)
  Prog.throwIf (cfg.endsAtMs ≤ cfg.startsAtMs)
    (.rangeError "SaleRedisStore.seed: endsAt must be after startsAt")
  request (.seed cfg.saleId cfg cfg.totalStock)

end Store

/-! ## Transactions -/

/-- One statement of a client. -/
def sql (client : ℕ) (st : Statement) : WorkerM st.Res := request (.sql client st)

/-- `OrderRepository.transaction`: an error of the work or of `COMMIT` rolls back and is rethrown;
an error of `ROLLBACK` is swallowed. -/
def transaction {α : Type} (client : ℕ) (work : WorkerM α) : WorkerM α :=
  tryCatch
    (do
      sql client .begin
      let result ← work
      sql client .commit
      return result)
    fun error => do
      tryCatch (sql client .rollback) fun _ => return ()
      throw error

/-- What `persist` answers. -/
inductive PersistResult where
  | persisted
  | idempotent
  | compensated
  deriving DecidableEq, Repr

/-- What `resolveFailed` answers. -/
inductive ResolveFailedResult where
  | persisted
  | compensated
  | compensationNoop
  deriving DecidableEq, Repr

/-- The work of `persist` inside its transaction. -/
def persistWork (client : ℕ) (payload : OrdersQueueJobPayload) : WorkerM PersistResult := do
  let _pid ← sql client .backendPid
  sql client (.lockReservation payload.reservationId)
  let inserted ← sql client (.insertPersisted payload)
  if inserted = 1 then return .persisted
  else match ← sql client (.selectUserForUpdate payload.userId) with
    | none => throw (.error "order conflict produced no user row")
    | some (currentId, status) =>
      if currentId = payload.reservationId then
        return if status = .persisted then .idempotent else .compensated
      else do
        Prog.throwIf (status = .persisted)
          (.persistenceConflict ("permanent persistence conflict for user " ++ payload.userId))
        let ledger ← Store.getReservation payload.saleId payload.userId
        Prog.throwIf (ledger.map (·.reservationId) ≠ some payload.reservationId)
          (.error ("current reservation identity mismatch for user " ++ payload.userId))
        let updated ← sql client (.promoteCompensated payload currentId)
        Prog.throwIf (updated ≠ 1)
          (.error "guarded compensated-order promotion affected unexpected row count")
        return .persisted

/-- `OrderRepository.persist`. -/
def persist (client : ℕ) (payload : OrdersQueueJobPayload) : WorkerM PersistResult :=
  transaction client (persistWork client payload)

/-- The result of a resolution whose compensation answered this. -/
def CompensateReply.result (r : CompensateReply) : ResolveFailedResult :=
  if r.outcome = .noop then .compensationNoop else .compensated

/-- The work of `resolveFailed` inside its transaction: the result and `compensateAfterCommit`. -/
def resolveFailedWork (client : ℕ) (payload : OrdersQueueJobPayload)
    (compensate : WorkerM CompensateReply) : WorkerM (ResolveFailedResult × Bool) := do
  sql client (.lockReservation payload.reservationId)
  match ← sql client (.selectUserForUpdate payload.userId) with
  | some (currentId, status) =>
    if currentId = payload.reservationId then
      return if status = .persisted then (.persisted, false) else (.compensationNoop, true)
    else do
      let compensation ← compensate
      if status = .compensated then do
        let updated ← sql client (.updateMarker payload currentId)
        Prog.throwIf (updated ≠ 1)
          (.error "guarded compensation marker update affected unexpected row count")
        return (compensation.result, false)
      else return (compensation.result, false)
  | none =>
    let compensation ← compensate
    sql client (.insertMarker payload)
    return (compensation.result, false)

/-- `OrderRepository.resolveFailed`. -/
def resolveFailed (client : ℕ) (payload : OrdersQueueJobPayload)
    (compensate : WorkerM CompensateReply) : WorkerM ResolveFailedResult := do
  let (result, compensateAfterCommit) ←
    transaction client (resolveFailedWork client payload compensate)
  if compensateAfterCommit then do
    let _ ← compensate
    return result
  else return result

/-! ## The processor -/

/-- `OrderProcessor.process`. -/
def process (client : ℕ) (job : Job) : WorkerM Unit := do
  Prog.throwIf (job.name ≠ PERSIST_ORDER_JOB_NAME) (.error ("unexpected job name: " ++ job.name))
  let payload ← Prog.ofExcept (assertOrdersQueueJobPayload job.data)
  let expectedId ← Prog.ofExcept (buildOrdersJobId payload.saleId payload.userId)
  Prog.throwIf (job.id ≠ expectedId) (.error ("job id mismatch: expected " ++ expectedId))
  Prog.throwIf (job.attempts ≠ some ORDERS_JOB_ATTEMPTS) (.error "job attempts must equal 5")
  let _outcome ← persist client payload

end FlashSale
