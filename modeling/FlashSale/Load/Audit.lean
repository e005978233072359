import FlashSale.Lib.Collection
import FlashSale.Lib.NumberText

/-!
# The verdict of a stress run

`evaluateAudit` combines four invariants of the state a stress run leaves behind: the counters of
Redis and Postgres, the orders, the buyers and the reservation ledger, the sale as the three stores
know it, and the evidence that the system had come to rest.

A report that passes says what its counters alone do not. The ledger has as many entries as there
are persisted orders, and the buyers are both the users of the ledger and the users of the orders; so
the users of the orders are as many as the orders and no user has two
(`persisted_users_nodup`). Each order finds its own entry in the ledger, hence the ledger is the list
of persisted orders (`ledger_perm`).
-/

namespace FlashSale.Load

open Number

/-! ## The records -/

/-- The scenarios of a stress run. -/
inductive StressScenario where
  | warmup | smoke | surge | duplicateStorm | soldOut | windowEdge
  deriving DecidableEq, Repr

/-- The status of a row of `orders`. -/
inductive AuditOrderStatus where
  | reserved | persisted | compensated
  deriving DecidableEq, Repr

/-- A sale as one of the three stores knows it. -/
structure SaleConfig where
  id : String
  name : String
  totalStock : JsNumber
  startsAtMs : JsNumber
  endsAtMs : JsNumber
  deriving DecidableEq

/-- A row of `orders`, with its `created_at`. -/
structure AuditOrder where
  id : String
  userId : String
  status : AuditOrderStatus
  createdAtMs : JsNumber
  deriving DecidableEq

/-- A value of the reservation ledger, parsed. -/
structure AuditReservation where
  reservationId : String
  reservedAtMs : JsNumber
  deriving DecidableEq

/-- The jobs of the orders queue by state. -/
structure QueueCounts where
  waiting : JsNumber
  active : JsNumber
  delayed : JsNumber
  failed : JsNumber
  deriving DecidableEq

/-- What the audit counts in Postgres. -/
structure PostgresCounts where
  totalStock : JsNumber
  persisted : JsNumber
  compensated : JsNumber
  reserved : JsNumber
  duplicateUsersGlobal : JsNumber
  duplicateUsersInSale : JsNumber
  outsideWindow : JsNumber
  deriving DecidableEq

/-- What the audit counts in Redis. -/
structure RedisCounts where
  stock : JsNumber
  buyers : JsNumber
  reservations : JsNumber
  metricsConfirmed : JsNumber
  deriving DecidableEq

/-- The convergence part of a report. -/
structure Convergence where
  elapsedMs : JsNumber
  apiReady : Bool
  workerReady : Bool
  queue : QueueCounts
  matchingSnapshots : JsNumber
  stableIntervalMs : JsNumber
  finalLiveCollection : Bool
  successfulCollections : JsNumber
  collectionFailures : JsNumber

/-- What an audit has collected. -/
structure AuditEvaluationInput where
  runId : String
  scenario : StressScenario
  saleId : String
  initialStock : JsNumber
  expectedConfirmed : JsNumber
  sale : SaleConfig
  apiSale : SaleConfig
  redisSale : SaleConfig
  convergence : Convergence
  postgres : PostgresCounts
  redis : RedisCounts
  orders : List AuditOrder
  buyers : JsSet String
  reservations : JsMap String AuditReservation
  ledgerErrors : Option (List String)

/-- The verdict on one invariant. -/
structure InvariantResult where
  pass : Bool
  evidence : List String

/-- The report that is published. -/
structure AuditReport where
  schemaVersion : ℕ
  runId : String
  scenario : StressScenario
  saleId : String
  auditedAt : String
  expectedConfirmed : JsNumber
  convergence : Convergence
  postgres : PostgresCounts
  redis : RedisCounts
  I1 : InvariantResult
  I2 : InvariantResult
  I3 : InvariantResult
  I4 : InvariantResult
  pass : Bool

/-! ## The verdict -/

/-- A number, a count and a truth value in an evidence text. -/
def shown (x : JsNumber) : String := String.ofList (toText x)

def shownCount (n : ℕ) : String := shown (.finite n)

def shownBool (b : Bool) : String := if b then "true" else "false"

/-- The confirmations a scenario is designed to have. -/
def StressScenario.fixed : StressScenario → ℕ
  | .warmup => 200
  | .smoke => 200
  | .surge => 500
  | .duplicateStorm => 5000
  | .soldOut => 10
  | .windowEdge => 1000

/-- The confirmations that were expected and the orders that were found are those of the scenario. -/
def scenarioCountsPass (scenario : StressScenario) (expected persisted : JsNumber) : Bool :=
  expected.eq (.finite scenario.fixed) && persisted.eq (.finite scenario.fixed)

/-- As many values on both sides, each of the left one on the right. -/
def equalSet (left right : JsSet String) : Bool := left.equal right

/-- `startsAtMs <= t && t < endsAtMs`. -/
def SaleConfig.inside (sale : SaleConfig) (t : JsNumber) : Bool :=
  sale.startsAtMs.le t && t.lt sale.endsAtMs

namespace AuditEvaluationInput

variable (input : AuditEvaluationInput)

/-- The orders that were persisted. -/
def persisted : List AuditOrder := input.orders.filter (·.status = .persisted)

/-- The orders that were given back. -/
def compensated : List AuditOrder := input.orders.filter (·.status = .compensated)

/-- Who has a persisted order. -/
def persistedUsers : JsSet String := .ofList (input.persisted.map AuditOrder.userId)

/-- Who has an entry in the ledger. -/
def reservationUsers : JsSet String := .ofList input.reservations.keys

/-- The three stores agree on the sale, and it is the one of the run. -/
def configEqual : Bool :=
  [input.sale, input.apiSale, input.redisSale].all fun sale =>
    sale.id = input.saleId && sale.name = input.sale.name &&
      sale.totalStock.eq input.initialStock && sale.startsAtMs.eq input.sale.startsAtMs &&
      sale.endsAtMs.eq input.sale.endsAtMs

/-- Each persisted order has its entry in the ledger, with its id and its time. -/
def identitiesMatch : Bool :=
  input.persisted.all fun order =>
    match input.reservations.get order.userId with
    | none => false
    | some reservation =>
      reservation.reservationId = order.id && reservation.reservedAtMs.eq order.createdAtMs

/-- No user of an order that was given back is a buyer or has an entry. -/
def compensatedAbsent : Bool :=
  input.compensated.all fun order =>
    !input.buyers.has order.userId && !input.reservations.has order.userId

/-- The persisted orders are those the scenario is designed to have. -/
def exactCounts : Bool :=
  scenarioCountsPass input.scenario input.expectedConfirmed input.postgres.persisted

/-- A collector that reports no list has met no error. -/
def ledgerErrorCount : ℕ := (input.ledgerErrors.map List.length).getD 0

/-- No oversell: stock and reservations make up the initial stock. -/
def I1 : InvariantResult where
  pass := (JsNumber.finite 0).le input.redis.stock && input.redis.stock.le input.initialStock &&
    input.redis.reservations.le input.initialStock &&
    (input.redis.stock.add input.redis.reservations).eq input.initialStock &&
    input.postgres.persisted.eq input.redis.reservations && input.exactCounts
  evidence :=
    ["stock=" ++ shown input.redis.stock ++ ", reservations=" ++ shown input.redis.reservations ++
        ", total=" ++ shown input.initialStock,
      "persisted=" ++ shown input.postgres.persisted ++ ", expected=" ++
        shown input.expectedConfirmed]

/-- One order a user: buyers, reservations and persisted orders have the same users. -/
def I2 : InvariantResult where
  pass := input.postgres.duplicateUsersGlobal.eq (.finite 0) &&
    input.postgres.duplicateUsersInSale.eq (.finite 0) &&
    equalSet input.buyers input.reservationUsers && equalSet input.buyers input.persistedUsers
  evidence :=
    ["globalDuplicates=" ++ shown input.postgres.duplicateUsersGlobal ++ ", saleDuplicates=" ++
        shown input.postgres.duplicateUsersInSale,
      "buyers=" ++ shownCount input.buyers.size ++ ", reservations=" ++
        shownCount input.reservationUsers.size ++ ", persistedUsers=" ++
        shownCount input.persistedUsers.size]

/-- Every order and every reservation is of the time of the sale. -/
def allInsideWindow : Bool :=
  (input.orders.all fun order => input.sale.inside order.createdAtMs) &&
    input.reservations.values.all fun reservation => input.sale.inside reservation.reservedAtMs

/-- Nothing was sold outside the window. -/
def I3 : InvariantResult where
  pass := input.postgres.outsideWindow.eq (.finite 0) && input.allInsideWindow
  evidence :=
    ["outsideWindow=" ++ shown input.postgres.outsideWindow ++ ", startsAtMs=" ++
      shown input.sale.startsAtMs ++ ", endsAtMs=" ++ shown input.sale.endsAtMs]

/-- Redis and Postgres have converged. -/
def I4 : InvariantResult where
  pass := input.convergence.apiReady && input.convergence.workerReady &&
    input.convergence.matchingSnapshots.eq (.finite 2) &&
    (JsNumber.finite 250).le input.convergence.stableIntervalMs &&
    input.convergence.finalLiveCollection &&
    input.convergence.queue.waiting.eq (.finite 0) &&
    input.convergence.queue.active.eq (.finite 0) &&
    input.convergence.queue.delayed.eq (.finite 0) &&
    input.convergence.queue.failed.eq (.finite 0) &&
    input.postgres.reserved.eq (.finite 0) &&
    input.expectedConfirmed.eq (input.postgres.persisted.add input.postgres.compensated) &&
    input.identitiesMatch && input.reservations.size = input.persisted.length &&
    input.compensatedAbsent && input.configEqual && input.ledgerErrorCount = 0
  evidence :=
    ["confirmed=" ++ shown input.expectedConfirmed ++ ", persisted=" ++
        shown input.postgres.persisted ++ ", compensated=" ++ shown input.postgres.compensated ++
        ", reserved=" ++ shown input.postgres.reserved,
      "queue=" ++ shown input.convergence.queue.waiting ++ "/" ++
        shown input.convergence.queue.active ++ "/" ++ shown input.convergence.queue.delayed ++
        "/" ++ shown input.convergence.queue.failed ++ ", matchingSnapshots=" ++
        shown input.convergence.matchingSnapshots ++ ", stableIntervalMs=" ++
        shown input.convergence.stableIntervalMs ++ ", finalLiveCollection=" ++
        shownBool input.convergence.finalLiveCollection,
      "identitiesMatch=" ++ shownBool input.identitiesMatch ++ ", configEqual=" ++
        shownBool input.configEqual ++ ", ledgerErrors=" ++ shownCount input.ledgerErrorCount]

end AuditEvaluationInput

/-- The report on `input`, written at `auditedAt`. -/
def evaluateAudit (auditedAt : String) (input : AuditEvaluationInput) : AuditReport where
  schemaVersion := 1
  runId := input.runId
  scenario := input.scenario
  saleId := input.saleId
  auditedAt := auditedAt
  expectedConfirmed := input.expectedConfirmed
  convergence := input.convergence
  postgres := input.postgres
  redis := input.redis
  I1 := input.I1
  I2 := input.I2
  I3 := input.I3
  I4 := input.I4
  pass := [input.I1, input.I2, input.I3, input.I4].all InvariantResult.pass

/-! ## What a passing report says -/

/-- The ledger entry of an order. -/
def AuditOrder.entry (order : AuditOrder) : String × AuditReservation :=
  (order.userId, ⟨order.id, order.createdAtMs⟩)

namespace AuditEvaluationInput

/-- The counts are those of the collected set and map. -/
structure Counted (input : AuditEvaluationInput) : Prop where
  buyers : input.redis.buyers = .finite input.buyers.size
  reservations : input.redis.reservations = .finite input.reservations.size

/-- The stores agree on who bought what, and when. -/
structure Audited (input : AuditEvaluationInput) : Prop where
  users : (input.persisted.map AuditOrder.userId).Nodup
  ledger : input.reservations.entries.Perm (input.persisted.map AuditOrder.entry)
  buyers : ∀ user, user ∈ input.buyers.values ↔ user ∈ input.persisted.map AuditOrder.userId
  compensated : ∀ order ∈ input.orders, order.status = .compensated →
    order.userId ∉ input.buyers.values ∧ order.userId ∉ input.reservations.keys
  orders_inside : ∀ order ∈ input.orders,
    input.sale.startsAtMs.le order.createdAtMs = true ∧
      order.createdAtMs.lt input.sale.endsAtMs = true
  reservations_inside : ∀ reservation ∈ input.reservations.values,
    input.sale.startsAtMs.le reservation.reservedAtMs = true ∧
      reservation.reservedAtMs.lt input.sale.endsAtMs = true
  count : input.persisted.length = input.scenario.fixed

/-- The stock and the persisted orders make up the initial stock: as doubles, and exactly when the
stock is a whole number and the initial stock a safe integer. -/
structure Balanced (input : AuditEvaluationInput) : Prop where
  nonneg : (JsNumber.finite 0).le input.redis.stock = true
  le : input.redis.stock.le input.initialStock = true
  sum : input.redis.stock.add (.finite input.persisted.length) = input.initialStock
  exact : ∀ (stock : ℤ) (total : ℚ), input.redis.stock = .finite stock →
    input.initialStock = .finite total → total < 2 ^ 53 →
    (stock : ℚ) = total - input.persisted.length

variable {input : AuditEvaluationInput}

theorem keys_of_reservationUsers : input.reservationUsers.values.Perm input.reservations.keys :=
  (List.perm_ext_iff_of_nodup input.reservationUsers.nodup input.reservations.nodup).2
    fun _ => JsSet.mem_ofList

/-- The buyers are as many as the ledger entries, and those as the persisted orders; the buyers are
also the users of the orders, so no user has two. -/
theorem persisted_users_nodup (hledger : equalSet input.buyers input.reservationUsers = true)
    (horders : equalSet input.buyers input.persistedUsers = true)
    (hsize : input.reservations.size = input.persisted.length) :
    (input.persisted.map AuditOrder.userId).Nodup := by
  have hl := (JsSet.equal_iff_perm.1 hledger).trans keys_of_reservationUsers
  have ho := JsSet.equal_iff_perm.1 horders
  apply JsSet.nodup_of_size_ofList
  calc input.persistedUsers.size = input.buyers.size := ho.length_eq.symm
    _ = input.reservations.keys.length := hl.length_eq
    _ = input.reservations.size := List.length_map _
    _ = input.persisted.length := hsize
    _ = (input.persisted.map AuditOrder.userId).length := (List.length_map _).symm

/-- Each order finds its own entry, and there are no more entries than orders. -/
theorem ledger_perm (husers : (input.persisted.map AuditOrder.userId).Nodup)
    (hmatch : input.identitiesMatch = true)
    (hsize : input.reservations.size = input.persisted.length) :
    input.reservations.entries.Perm (input.persisted.map AuditOrder.entry) := by
  have hfst : (input.persisted.map AuditOrder.entry).map Prod.fst =
      input.persisted.map AuditOrder.userId := by
    rw [List.map_map]
    rfl
  have hnodup : (input.persisted.map AuditOrder.entry).Nodup := by
    apply List.Nodup.of_map Prod.fst
    rw [hfst]
    exact husers
  have hsub : input.persisted.map AuditOrder.entry ⊆ input.reservations.entries := by
    intro e he
    obtain ⟨order, horder, rfl⟩ := List.mem_map.1 he
    have h := List.all_eq_true.1 hmatch order horder
    split at h
    · cases h
    · rename_i reservation hget
      rw [Bool.and_eq_true, decide_eq_true_eq, JsNumber.eq_iff] at h
      have hentry : order.entry = (order.userId, reservation) := by
        unfold AuditOrder.entry
        rw [← h.1, ← h.2.1]
      rw [hentry]
      exact JsMap.mem_of_get hget
  have hlength : input.reservations.entries.length ≤
      (input.persisted.map AuditOrder.entry).length := by
    rw [List.length_map]
    exact hsize.le
  exact ((List.subperm_of_subset hnodup hsub).perm_of_length_le hlength).symm

theorem inside_iff {sale : SaleConfig} {t : JsNumber} :
    sale.inside t = true ↔ sale.startsAtMs.le t = true ∧ t.lt sale.endsAtMs = true := by
  unfold SaleConfig.inside
  rw [Bool.and_eq_true]

/-- A whole stock has lost exactly one for each persisted order. -/
theorem stock_exact {stock : ℤ} {total : ℚ} {n : ℕ} (hnonneg : 0 ≤ stock)
    (hsum : (JsNumber.finite stock).add (.finite n) = .finite total) (htotal : total < 2 ^ 53) :
    (stock : ℚ) = total - n := by
  obtain ⟨m, rfl⟩ := Int.eq_ofNat_of_zero_le hnonneg
  have hcast : (((m : ℤ) : ℚ) + n) = ((m + n : ℕ) : ℚ) := by push_cast; rfl
  simp only [JsNumber.add] at hsum
  rw [hcast] at hsum
  rw [eq_of_ofRat_natCast hsum htotal]
  push_cast
  ring

/-- **A passing report is sound.** -/
theorem evaluateAudit_sound {auditedAt : String} (hcounted : input.Counted)
    (hpass : (evaluateAudit auditedAt input).pass = true) : input.Audited ∧ input.Balanced := by
  simp only [evaluateAudit, List.all_cons, List.all_nil, Bool.and_true, Bool.and_eq_true] at hpass
  obtain ⟨h1, h2, h3, h4⟩ := hpass
  simp only [I1, Bool.and_eq_true] at h1
  simp only [I2, Bool.and_eq_true] at h2
  simp only [I3, allInsideWindow, Bool.and_eq_true, List.all_eq_true, inside_iff] at h3
  simp only [I4, Bool.and_eq_true, decide_eq_true_eq] at h4
  obtain ⟨⟨⟨⟨⟨hnonneg, hle⟩, -⟩, hsum⟩, hpersisted⟩, hexact⟩ := h1
  obtain ⟨⟨-, hledger⟩, horders⟩ := h2
  obtain ⟨-, hinside, hrinside⟩ := h3
  obtain ⟨⟨⟨⟨⟨-, hmatch⟩, hsize⟩, habsent⟩, -⟩, -⟩ := h4
  have husers := persisted_users_nodup hledger horders hsize
  have hreservations : input.redis.reservations = .finite input.persisted.length := by
    rw [hcounted.reservations, hsize]
  rw [hreservations, JsNumber.eq_iff] at hsum hpersisted
  refine ⟨⟨husers, ledger_perm husers hmatch hsize, ?_, ?_, hinside, hrinside, ?_⟩,
    ⟨hnonneg, hle, hsum.1, ?_⟩⟩
  · intro user
    rw [(JsSet.equal_iff_perm.1 horders).mem_iff]
    exact JsSet.mem_ofList
  · intro order horder hstatus
    have h := List.all_eq_true.1 habsent order
      (List.mem_filter.2 ⟨horder, decide_eq_true hstatus⟩)
    simpa [JsSet.has, JsMap.has] using h
  · simp only [exactCounts, scenarioCountsPass, Bool.and_eq_true, hpersisted.1] at hexact
    have := of_decide_eq_true hexact.2
    exact_mod_cast this
  · intro stock total hstock htotal hlt
    rw [hstock, htotal] at hsum
    rw [hstock, JsNumber.finite_le_finite] at hnonneg
    exact stock_exact (by exact_mod_cast hnonneg) hsum.1 hlt

/-- A sold-out run of ten buyers with the given stock left over. -/
def soldOutInput (stock initialStock : JsNumber) : AuditEvaluationInput :=
  let order (user : String) : AuditOrder := ⟨user ++ "-r", user, .persisted, .finite 1500⟩
  let orders := ["u0", "u1", "u2", "u3", "u4", "u5", "u6", "u7", "u8", "u9"].map order
  let sale : SaleConfig := ⟨"flash", "Flash", initialStock, .finite 1000, .finite 2000⟩
  { runId := "run-0001"
    scenario := .soldOut
    saleId := "flash"
    initialStock
    expectedConfirmed := .finite 10
    sale
    apiSale := sale
    redisSale := sale
    convergence := ⟨.finite 500, true, true, ⟨.finite 0, .finite 0, .finite 0, .finite 0⟩, .finite 2,
      .finite 250, true, .finite 3, .finite 0⟩
    postgres := ⟨initialStock, .finite 10, .finite 0, .finite 0, .finite 0, .finite 0, .finite 0⟩
    redis := ⟨stock, .finite 10, .finite 10, .finite 10⟩
    orders
    buyers := .ofList (orders.map AuditOrder.userId)
    reservations := ⟨orders.map AuditOrder.entry, by decide +kernel⟩
    ledgerErrors := none }

theorem evaluateAudit_sound_soldOut :
    (soldOutInput (.finite 0) (.finite 10)).Counted ∧
      (evaluateAudit "2026-07-23T00:00:00.000Z" (soldOutInput (.finite 0) (.finite 10))).pass = true ∧
      (soldOutInput (.finite 0) (.finite 10)).Audited ∧
      (soldOutInput (.finite 0) (.finite 10)).Balanced := by
  have hcounted : (soldOutInput (.finite 0) (.finite 10)).Counted :=
    ⟨by decide +kernel, by decide +kernel⟩
  have hpass : (evaluateAudit "2026-07-23T00:00:00.000Z"
      (soldOutInput (.finite 0) (.finite 10))).pass = true := by
    decide +kernel
  exact ⟨hcounted, hpass, evaluateAudit_sound hcounted hpass⟩

/-- The sum of the stock and the reservations is rounded: with eleven items and ten of them sold, a
stock of `1.0000000000000002` passes. -/
theorem fractional_stock_passes :
    let input := soldOutInput (.finite (1 + 1 / 2 ^ 52)) (.finite 11)
    input.Counted ∧ IsDouble (1 + 1 / 2 ^ 52) ∧ (evaluateAudit "" input).pass = true ∧
      input.redis.stock ≠ input.initialStock.sub (.finite input.persisted.length) := by
  refine ⟨⟨by decide +kernel, by decide +kernel⟩, ?_, ?_, ?_⟩ <;> decide +kernel

end AuditEvaluationInput

end FlashSale.Load
