import FlashSale.Api.Clock
import FlashSale.Api.Validation
import FlashSale.Lib.Number

/-!
# The bodies the API sends

The bodies of sale status, purchase, purchase status and readiness, with every outcome of the stores
behind them. A body is a JavaScript value whose numbers may be infinite; `Body.json` is what a client
reads after `JSON.stringify` and `JSON.parse`, where such a number has become `null`.

A body that cannot be built (`toISOString` of a time outside the range of a `Date`, a sale that is
not initialised) is an error here: the API then answers with the error envelope.
-/

namespace FlashSale

open Number

/-! ## Values -/

/-- A JavaScript value. -/
inductive Body where
  | undefined
  | null
  | bool (b : Bool)
  | number (n : JsNumber)
  | string (s : String)
  | array (items : List Body)
  | object (fields : List (String × Body))

namespace Body

def int (n : ℤ) : Body := .number (.finite n)

mutual

/-- `JSON.parse(JSON.stringify(value))`; `undefined` in an array becomes `null`. -/
def json : Body → JsValue
  | .undefined => .undefined
  | .null => .null
  | .bool b => .bool b
  | .number (.finite q) => .number q
  | .number _ => .null
  | .string s => .string s
  | .array items => .array (jsonItems items)
  | .object fields => .object (jsonFields fields)

def jsonItems : List Body → List JsValue
  | [] => []
  | .undefined :: items => .null :: jsonItems items
  | item :: items => item.json :: jsonItems items

/-- A field that is `undefined` is left out. -/
def jsonFields : List (String × Body) → List (String × JsValue)
  | [] => []
  | (_, .undefined) :: fields => jsonFields fields
  | (key, value) :: fields => (key, value.json) :: jsonFields fields

end

theorem jsonFields_cons {key : String} {value : Body} {fields : List (String × Body)}
    (h : value.json ≠ .undefined) :
    jsonFields ((key, value) :: fields) = (key, value.json) :: jsonFields fields := by
  cases value with
  | undefined => exact absurd (by simp only [json]) h
  | null | bool _ | number _ | string _ | array _ | object _ => simp only [jsonFields]

end Body

mutual

/-- A parsed value as a JavaScript value. -/
def JsValue.body : JsValue → Body
  | .undefined => .undefined
  | .null => .null
  | .bool b => .bool b
  | .number q => .number (.finite q)
  | .string s => .string s
  | .array items => .array (JsValue.bodyItems items)
  | .object fields => .object (JsValue.bodyFields fields)

def JsValue.bodyItems : List JsValue → List Body
  | [] => []
  | item :: items => item.body :: JsValue.bodyItems items

def JsValue.bodyFields : List (String × JsValue) → List (String × Body)
  | [] => []
  | (key, value) :: fields => (key, value.body) :: JsValue.bodyFields fields

end

/-! ## Sale status -/

/-- The members of `SALE_STATES`. -/
def SaleState.text : SaleState → String
  | .upcoming => "upcoming"
  | .active => "active"
  | .soldOut => "sold_out"
  | .ended => "ended"

/-- `SaleService.getStatus` on the keys of the sale. -/
def getSaleStatus (saleId : String) (s : Sale) (t : RedisTime) : Except Failure Body := do
  assertSaleId saleId
  let snapshot ← s.status t
  if !snapshot.initialized || decide (snapshot.stockRemaining < 0) then
    throw (.error "NOT_INITIALIZED")
  let serverTime ← isoTime snapshot.serverTimeMs
  return .object [("saleId", .string saleId), ("name", .string snapshot.name),
    ("status", .string snapshot.state.text), ("startsAt", .string snapshot.startsAt),
    ("endsAt", .string snapshot.endsAt), ("startsAtMs", .int snapshot.startsAtMs),
    ("endsAtMs", .int snapshot.endsAtMs), ("totalStock", .int snapshot.totalStock),
    ("stockRemaining", .int snapshot.stockRemaining), ("serverTime", .string serverTime),
    ("serverTimeMs", .int snapshot.serverTimeMs)]

/-! ## Purchase -/

/-- `ATTEMPT_OUTCOMES`. -/
inductive AttemptOutcome where
  | confirmed
  | alreadyPurchased
  | soldOut
  | saleNotStarted
  | saleEnded
  | notInitialized
  | invalidUserId
  | rateLimited
  | upstreamUnavailable
  deriving DecidableEq, Repr

def AttemptOutcome.text : AttemptOutcome → String
  | .confirmed => "CONFIRMED"
  | .alreadyPurchased => "ALREADY_PURCHASED"
  | .soldOut => "SOLD_OUT"
  | .saleNotStarted => "SALE_NOT_STARTED"
  | .saleEnded => "SALE_ENDED"
  | .notInitialized => "NOT_INITIALIZED"
  | .invalidUserId => "INVALID_USER_ID"
  | .rateLimited => "RATE_LIMITED"
  | .upstreamUnavailable => "UPSTREAM_UNAVAILABLE"

/-- `messageFor`. -/
def AttemptOutcome.messageFor : AttemptOutcome → String
  | .confirmed => "Purchase confirmed."
  | .alreadyPurchased => "You have already purchased this item."
  | .soldOut => "This item is sold out."
  | .saleNotStarted => "The sale has not started yet."
  | .saleEnded => "The sale has ended."
  | .notInitialized => "The sale is not ready yet. Please try again shortly."
  | .invalidUserId => "The provided user ID is invalid."
  | .rateLimited => "Too many requests. Please slow down and try again shortly."
  | .upstreamUnavailable => "The service is temporarily unavailable. Please try again shortly."

def PurchaseOutcome.attempt : PurchaseOutcome → AttemptOutcome
  | .confirmed => .confirmed
  | .alreadyPurchased => .alreadyPurchased
  | .soldOut => .soldOut
  | .saleNotStarted => .saleNotStarted
  | .saleEnded => .saleEnded
  | .notInitialized => .notInitialized

def GuardOutcome.attempt : GuardOutcome → AttemptOutcome
  | .saleNotStarted => .saleNotStarted
  | .saleEnded => .saleEnded

structure PurchaseDecision where
  outcome : AttemptOutcome
  stockRemaining : Option ℤ
  serverTimeMs : ℤ
  reservationId : Option String
  deriving DecidableEq, Repr

/-- `PurchaseService.purchase` from the verdict of the guard, the answer of the store and the reading
of the clock. The enqueueing of a confirmed order never changes the decision. -/
def purchaseDecision (guard : Option (GuardOutcome × ℤ)) (stored : Except Failure PurchaseResult)
    (nowMs : ℤ) : PurchaseDecision :=
  match guard with
  | some (outcome, nowMs) => ⟨outcome.attempt, none, nowMs, none⟩
  | none =>
    match stored with
    | .error _ => ⟨.upstreamUnavailable, none, nowMs, none⟩
    | .ok result =>
      ⟨result.outcome.attempt,
        if result.outcome = .notInitialized then none else some result.stockRemaining,
        result.serverTimeMs, result.reservationId⟩

/-- The envelope of `buildPurchaseEnvelope`. -/
def buildPurchaseEnvelope (outcome : AttemptOutcome) (userId saleId : String)
    (stockRemaining : Option ℤ) (serverTimeMs : ℤ) : Except Failure Body := do
  let serverTime ← isoTime serverTimeMs
  return .object [("status", .string outcome.text), ("message", .string outcome.messageFor),
    ("userId", .string userId), ("saleId", .string saleId),
    ("stockRemaining", (stockRemaining.map Body.int).getD .null),
    ("serverTime", .string serverTime), ("serverTimeMs", .int serverTimeMs)]

/-- `raw.slice(0, n)` up to half a surrogate pair at its end. -/
def takeUnits : ℕ → List Char → List Char
  | _, [] => []
  | n, c :: cs =>
    let units := if c.toNat < 0x10000 then 1 else 2
    if n < units then [] else c :: takeUnits (n - units) cs

/-- `sanitizeUserIdEcho`; half a surrogate pair is stripped with every other foreign character. -/
def sanitizeUserIdEcho (raw : String) : String :=
  String.ofList ((takeUnits USER_ID_MAX_LENGTH raw.toList).filter isUserIdChar)

/-- The envelope the exception filter and the limiter send on the purchase route. -/
def errorEnvelope (outcome : AttemptOutcome) (userId saleId : String) (serverTimeMs : ℤ) :
    Except Failure Body := do
  let serverTime ← isoTime serverTimeMs
  return .object [("status", .string outcome.text), ("userId", .string userId),
    ("saleId", .string saleId), ("stockRemaining", .null), ("serverTime", .string serverTime),
    ("serverTimeMs", .int serverTimeMs), ("message", .string outcome.messageFor)]

/-! ## Purchase status -/

/-- The members of `ORDER_STATUSES` that rows have. -/
def DurableOrderStatus.text : DurableOrderStatus → String
  | .persisted => "persisted"
  | .compensated => "compensated"

/-- What `PurchaseStatusService.getStatus` answers. -/
inductive PurchaseStatus where
  | recorded (status : DurableOrderStatus) (createdAtMs : ℤ)
  | inRedis
  | absent
  | unavailable
  deriving DecidableEq, Repr

/-- The source of the answer: the row, else the buyers set. A failed query reads as no row. -/
def purchaseStatus (row : Except Failure (Option DurableOrder)) (hasPurchased : Except Failure Bool) :
    PurchaseStatus :=
  match row with
  | .ok (some row) => .recorded row.status row.createdAtMs
  | _ =>
    match hasPurchased with
    | .ok true => .inRedis
    | .ok false => .absent
    | .error _ => .unavailable

/-- The field `purchased` of the answer. -/
def PurchaseStatus.purchased : PurchaseStatus → Bool
  | .recorded status _ => status == .persisted
  | .inRedis => true
  | .absent => false
  | .unavailable => false

/-- The body of `getStatus` with status 200; `none` for the answer 503. -/
def PurchaseStatus.body (status : PurchaseStatus) (userId saleId : String) (nowMs : ℤ) :
    Option (Except Failure Body) :=
  let build (order : Body) : Except Failure Body := do
    let serverTime ← isoTime nowMs
    return .object [("userId", .string userId), ("saleId", .string saleId),
      ("purchased", .bool status.purchased), ("order", order), ("serverTime", .string serverTime),
      ("serverTimeMs", .int nowMs)]
  match status with
  | .recorded st createdAtMs => some do
    let createdAt ← isoTime createdAtMs
    build (.object [("status", .string st.text), ("createdAt", .string createdAt)])
  | .inRedis => some (build (.object [("status", .string "reserved"), ("createdAt", .null)]))
  | .absent => some (build .null)
  | .unavailable => none

/-! ## Readiness -/

/-- A check that waits on a store: the readings of `Date.now()` around it and its answer. -/
structure TimedCheck where
  start : ℤ
  settledAt : ℤ
  ok : Bool
  deriving DecidableEq, Repr

structure QueueDepth where
  waiting : ℕ
  active : ℕ
  delayed : ℕ
  failed : ℕ
  deriving DecidableEq, Repr

/-- What a call of `getReadiness` meets; `none` is a check that outran its budget. -/
structure ReadinessProbe where
  redis : Option TimedCheck
  postgres : Option TimedCheck
  clock : AnchoredClock
  CLOCK_MAX_STALENESS_MS : ℤ
  /-- The readings of `Date.now()` in `isFresh`, `ageMs` and `nowMs`. -/
  freshAt : ℤ
  ageAt : ℤ
  now : ℤ
  sale : Option (Except Failure SaleSnapshot)
  queue : Option (Except Failure QueueDepth)
  /-- `process.uptime()`. -/
  uptimeSeconds : ℚ
  uptime_nonneg : 0 ≤ uptimeSeconds
  requestId : String

/-- `ageMs()` at the local reading `now`. -/
def AnchoredClock.ageMs (c : AnchoredClock) (now : ℤ) : JsNumber :=
  match c.lastSyncAtMs with
  | none => .infinite false
  | some lastSyncAtMs => .finite (now - lastSyncAtMs : ℤ)

/-- `checkRedis` and `checkPostgres`. -/
def latencyCheck (check : Option TimedCheck) : Body :=
  match check with
  | none => .object [("ok", .bool false), ("latencyMs", .null)]
  | some c => .object [("ok", .bool c.ok), ("latencyMs", .int (c.settledAt - c.start))]

/-- `HealthService.getLiveness`. -/
def getLiveness (uptimeSeconds : ℚ) : Body :=
  .object [("status", .string "ok"), ("service", .string "api"), ("version", .string "0.0.0"),
    ("uptimeSeconds", .number (.finite uptimeSeconds))]

namespace ReadinessProbe

def checkClock (p : ReadinessProbe) : Body :=
  .object [("ok", .bool (p.clock.isFresh p.CLOCK_MAX_STALENESS_MS p.freshAt)),
    ("offsetMs", .int p.clock.offsetMs), ("rttMs", .int p.clock.rttMs),
    ("ageMs", .number (p.clock.ageMs p.ageAt))]

/-- The fields `initialized` and `stockKeyPresent` of `checkSale`. -/
def saleFlags (p : ReadinessProbe) : Bool × Bool :=
  match p.sale with
  | some (.ok snapshot) =>
    (snapshot.initialized, snapshot.initialized && decide (0 ≤ snapshot.stockRemaining))
  | _ => (false, false)

def checkSale (p : ReadinessProbe) : Body :=
  .object [("ok", .bool p.saleFlags.2), ("initialized", .bool p.saleFlags.1),
    ("stockKeyPresent", .bool p.saleFlags.2)]

def checkQueue (p : ReadinessProbe) : Body :=
  let (ok, depth) : Bool × QueueDepth := match p.queue with
    | some (.ok depth) => (true, depth)
    | _ => (false, ⟨0, 0, 0, 0⟩)
  .object [("ok", .bool ok), ("waiting", .int depth.waiting), ("active", .int depth.active),
    ("delayed", .int depth.delayed), ("failed", .int depth.failed)]

/-- Only Redis, the clock and the sale degrade the pod. -/
def healthy (p : ReadinessProbe) : Bool :=
  p.redis.any (·.ok) && p.clock.isFresh p.CLOCK_MAX_STALENESS_MS p.freshAt && p.saleFlags.2

/-- `HealthService.getReadiness`. -/
def getReadiness (p : ReadinessProbe) : Except Failure Body := do
  let serverTimeMs := p.clock.nowMs p.now
  let serverTime ← isoTime serverTimeMs
  return .object [("status", .string (if p.healthy then "ok" else "degraded")),
    ("service", .string "api"), ("version", .string "0.0.0"),
    ("uptimeSeconds", .number (.finite p.uptimeSeconds)),
    ("checks", .object [("redis", latencyCheck p.redis), ("postgres", latencyCheck p.postgres),
      ("clock", p.checkClock), ("sale", p.checkSale), ("queue", p.checkQueue)]),
    ("requestId", .string p.requestId), ("serverTime", .string serverTime),
    ("serverTimeMs", .int serverTimeMs)]

end ReadinessProbe

end FlashSale
