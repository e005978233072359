import FlashSale.Api.Responses

/-!
# The decoders of the web client

Each decoder checks the fields of a parsed body and returns the body itself. On every body of the API
they agree with it, with one exception: `JSON.stringify` turns the infinite age of a clock that has
never synced into `null`, which `decodeReadiness` refuses, as it refuses a negative latency (a
wall clock that went back during a check). `ApiCall.Clear` says that neither happened.
-/

namespace FlashSale

open Number

/-! ## Checks -/

namespace JsValue

def isString : JsValue → Bool
  | .string _ => true
  | _ => false

def isBool : JsValue → Bool
  | .bool _ => true
  | _ => false

/-- A parsed number is finite. -/
def isFinite : JsValue → Bool
  | .number _ => true
  | _ => false

def isInteger : JsValue → Bool
  | .number q => q.den == 1
  | _ => false

def isCount : JsValue → Bool
  | .number q => q.den == 1 && decide (0 ≤ q)
  | _ => false

def isNullableCount : JsValue → Bool
  | .null => true
  | v => v.isCount

def isIso (date : JsDate) : JsValue → Bool
  | .string s => (date.parse s).isSome
  | _ => false

def isMember (values : List String) : JsValue → Bool
  | .string s => values.contains s
  | _ => false

/-- `latency`. -/
def isLatency : JsValue → Bool
  | .null => true
  | .number q => decide (0 ≤ q)
  | _ => false

/-- `value < 0` of a number. -/
def isNegative : JsValue → Bool
  | .number q => decide (q < 0)
  | _ => false

/-- `a > b` of two numbers. -/
def gt : JsValue → JsValue → Bool
  | .number a, .number b => decide (b < a)
  | _, _ => false

def isTrue : JsValue → Bool
  | .bool b => b
  | _ => false

/-- The fields of an object. -/
def fields? : JsValue → Option (List (String × JsValue))
  | .object fields => some fields
  | _ => none

section

variable (s : String) (b : Bool) (q a : ℚ)

@[simp] theorem isString_string : (string s).isString = true := rfl
@[simp] theorem isBool_bool : (bool b).isBool = true := rfl
@[simp] theorem isTrue_bool : (bool b).isTrue = b := rfl
@[simp] theorem isFinite_number : (number q).isFinite = true := rfl
@[simp] theorem isFinite_null : null.isFinite = false := rfl
@[simp] theorem isInteger_number : (number q).isInteger = (q.den == 1) := rfl
@[simp] theorem isCount_number : (number q).isCount = (q.den == 1 && decide (0 ≤ q)) := rfl
@[simp] theorem isNullableCount_null : null.isNullableCount = true := rfl
@[simp] theorem isNullableCount_number : (number q).isNullableCount = (number q).isCount := rfl
@[simp] theorem isLatency_null : null.isLatency = true := rfl
@[simp] theorem isLatency_number : (number q).isLatency = decide (0 ≤ q) := rfl
@[simp] theorem isNegative_number : (number q).isNegative = decide (q < 0) := rfl
@[simp] theorem gt_number : (number a).gt (number q) = decide (q < a) := rfl
@[simp] theorem isMember_string (values : List String) :
    (string s).isMember values = values.contains s := rfl
@[simp] theorem fields?_object (fields : List (String × JsValue)) :
    (object fields).fields? = some fields := rfl

end

end JsValue

open JsValue

/-- The states of a sale. -/
def SALE_STATES : List String := ["upcoming", "active", "sold_out", "ended"]

/-- The outcomes of a purchase. -/
def ATTEMPT_OUTCOMES : List String :=
  ["CONFIRMED", "ALREADY_PURCHASED", "SOLD_OUT", "SALE_NOT_STARTED", "SALE_ENDED", "NOT_INITIALIZED",
    "INVALID_USER_ID", "RATE_LIMITED", "UPSTREAM_UNAVAILABLE"]

/-- The states of an order. -/
def ORDER_STATUSES : List String := ["reserved", "persisted", "compensated"]

/-! ## Decoders -/

section

variable (date : JsDate)

/-- The answer of `GET /api/sale`. -/
def decodeSaleStatus (value : JsValue) : Option JsValue := do
  let fields ← value.fields?
  if !(get fields "saleId").isString || !(get fields "name").isString ||
      !(get fields "status").isMember SALE_STATES || !(get fields "startsAt").isIso date ||
      !(get fields "endsAt").isIso date || !(get fields "startsAtMs").isInteger ||
      !(get fields "endsAtMs").isInteger || !(get fields "totalStock").isCount ||
      !(get fields "stockRemaining").isCount ||
      (get fields "stockRemaining").gt (get fields "totalStock") ||
      !(get fields "serverTime").isIso date || !(get fields "serverTimeMs").isInteger then none
  else some value

/-- The answer of `POST /api/purchase`. -/
def decodePurchase (value : JsValue) : Option JsValue := do
  let fields ← value.fields?
  let message := get fields "message"
  if !(get fields "status").isMember ATTEMPT_OUTCOMES || !(get fields "userId").isString ||
      !(get fields "saleId").isString || !(get fields "stockRemaining").isNullableCount ||
      !(get fields "serverTime").isIso date || !(get fields "serverTimeMs").isInteger ||
      (match message with
        | .undefined => false
        | _ => !message.isString) then none
  else some value

/-- The checks of `decodePurchaseStatus` on `value.order`. -/
def orderAccepted (purchased : JsValue) : JsValue → Bool
  | .null => !purchased.isTrue
  | .object order =>
    (get order "status").isMember ORDER_STATUSES &&
      (match get order "createdAt" with
        | .null => true
        | createdAt => createdAt.isIso date) &&
      (match get order "status" with
        | .string "compensated" => !purchased.isTrue
        | _ => purchased.isTrue)
  | _ => false

/-- The answer of `GET /api/purchase/:userId`. -/
def decodePurchaseStatus (value : JsValue) : Option JsValue := do
  let fields ← value.fields?
  if !(get fields "userId").isString || !(get fields "saleId").isString ||
      !(get fields "purchased").isBool then none
  else if !(get fields "serverTime").isIso date || !(get fields "serverTimeMs").isInteger then none
  else if !orderAccepted date (get fields "purchased") (get fields "order") then none
  else some value

/-- The answer of `GET /api/health/ready`. -/
def decodeReadiness (value : JsValue) : Option JsValue := do
  let fields ← value.fields?
  if !(get fields "status").isMember ["ok", "degraded"] ||
      !(get fields "service").isMember ["api"] then none
  else if !(get fields "version").isString || !(get fields "uptimeSeconds").isFinite ||
      (get fields "uptimeSeconds").isNegative then none
  else if !(get fields "requestId").isString || !(get fields "serverTime").isIso date ||
      !(get fields "serverTimeMs").isInteger then none
  else
    let checks ← (get fields "checks").fields?
    let redis ← (get checks "redis").fields?
    if !(get redis "ok").isBool || !(get redis "latencyMs").isLatency then none
    else
      let postgres ← (get checks "postgres").fields?
      if !(get postgres "ok").isBool || !(get postgres "latencyMs").isLatency then none
      else
        let clock ← (get checks "clock").fields?
        if !(get clock "ok").isBool || !(get clock "offsetMs").isFinite ||
            !(get clock "rttMs").isFinite || !(get clock "ageMs").isFinite then none
        else
          let sale ← (get checks "sale").fields?
          if !(get sale "ok").isBool || !(get sale "initialized").isBool ||
              !(get sale "stockKeyPresent").isBool then none
          else
            let queue ← (get checks "queue").fields?
            if !(get queue "ok").isBool || !(get queue "waiting").isCount ||
                !(get queue "active").isCount || !(get queue "delayed").isCount ||
                !(get queue "failed").isCount then none
            else some value

/-- The decoder returns the body unchanged after a trip through JSON. -/
def Agrees (decode : JsValue → Option JsValue) (body : Body) : Prop :=
  ∃ value, decode body.json = some value ∧ value.body = body

end

/-! ## Bodies -/

variable {date : JsDate}

theorem isoTime_ok {ms : ℤ} {s : String} (h : isoTime ms = .ok s) :
    (JsValue.string s).isIso date = true := by
  unfold isoTime at h
  split_ifs at h with hms
  obtain rfl := Except.ok.inj h
  show (date.parse (Date.toISOString ms)).isSome = true
  rw [date.parse_toISOString hms]
  rfl

theorem Agrees.intro {decode : JsValue → Option JsValue} {body : Body}
    (h : decode body.json = some body.json) (hsame : body.json.body = body) : Agrees decode body :=
  ⟨_, h, hsame⟩

theorem mem_saleStates (state : SaleState) : state.text ∈ SALE_STATES := by
  cases state
  all_goals decide

theorem mem_attemptOutcomes (outcome : AttemptOutcome) : outcome.text ∈ ATTEMPT_OUTCOMES := by
  cases outcome
  all_goals decide

theorem agrees_saleStatus {calls : List ScriptCall} (hcalls : ∀ c ∈ calls, c.Issued date)
    {saleId : String} {t : RedisTime} {body : Body}
    (h : getSaleStatus saleId (saleAfter calls) t = .ok body) :
    Agrees (decodeSaleStatus date) body := by
  obtain ⟨-, -, h⟩ := bind_eq_ok h
  obtain ⟨snap, hsnap, h⟩ := bind_eq_ok h
  obtain ⟨hready, h⟩ := throw_eq_ok h
  obtain ⟨serverTime, htime, h⟩ := bind_eq_ok h
  simp only [Bool.or_eq_true, Bool.not_eq_true', decide_eq_true_eq, not_or,
    Bool.not_eq_false] at hready
  obtain ⟨cfg, state, hcfg, rfl⟩ := status_initialized hsnap hready.1
  have hparsed := parsed_saleAfter hcalls hcfg
  have hconserved := conserved_saleAfter fun c hc => (hcalls c hc).defaultSeed
  obtain ⟨stock, hs, hs0, hs1, -⟩ := hconserved.seeded cfg hcfg
  have hsafe := hconserved.safe cfg hcfg
  have htotal : Number.ofInt cfg.totalStock = cfg.totalStock :=
    Number.ofInt_of_nonneg (hs0.trans hs1) hsafe
  have hstock : Number.ofInt ((saleAfter calls).stock.getD (-1)) = stock := by
    rw [hs]
    exact Number.ofInt_of_nonneg hs0 (hs1.trans hsafe)
  have hstart : (JsValue.string cfg.startsAt).isIso date = true := by
    show (date.parse cfg.startsAt).isSome = true
    rw [hparsed.startsAt]
    rfl
  have hend : (JsValue.string cfg.endsAt).isIso date = true := by
    show (date.parse cfg.endsAt).isSome = true
    rw [hparsed.endsAt]
    rfl
  obtain rfl := Except.ok.inj h
  have hpos : (0 : ℤ) ≤ cfg.totalStock := hs0.trans hs1
  refine Agrees.intro ?_ ?_
  · unfold decodeSaleStatus
    simp [Body.json, Body.jsonFields, Body.int, JsValue.get, hstart, hend, isoTime_ok htime,
      mem_saleStates, hstock, hs0, hs1, htotal, hpos]
  · simp only [Body.json, Body.jsonFields, Body.int, JsValue.body, JsValue.bodyFields]

theorem agrees_envelope {outcome : AttemptOutcome} {userId saleId : String}
    {stockRemaining : Option ℤ} {ms : ℤ} {body : Body}
    (hstock : ∀ n, stockRemaining = some n → 0 ≤ n)
    (h : buildPurchaseEnvelope outcome userId saleId stockRemaining ms = .ok body) :
    Agrees (decodePurchase date) body := by
  obtain ⟨serverTime, htime, h⟩ := bind_eq_ok h
  obtain rfl := Except.ok.inj h
  unfold decodePurchase
  cases stockRemaining with
  | none =>
    refine Agrees.intro ?_ ?_
    · simp [Body.json, Body.jsonFields, Body.int, JsValue.get, isoTime_ok htime,
        mem_attemptOutcomes]
    · simp [Body.json, Body.jsonFields, Body.int, JsValue.body, JsValue.bodyFields]
  | some n =>
    refine Agrees.intro ?_ ?_
    · simp [Body.json, Body.jsonFields, Body.int, JsValue.get, isoTime_ok htime,
        mem_attemptOutcomes, hstock n rfl]
    · simp [Body.json, Body.jsonFields, Body.int, JsValue.body, JsValue.bodyFields]

theorem agrees_errorEnvelope {outcome : AttemptOutcome} {userId saleId : String} {ms : ℤ}
    {body : Body} (h : errorEnvelope outcome userId saleId ms = .ok body) :
    Agrees (decodePurchase date) body := by
  obtain ⟨serverTime, htime, h⟩ := bind_eq_ok h
  obtain rfl := Except.ok.inj h
  unfold decodePurchase
  refine Agrees.intro ?_ ?_
  · simp [Body.json, Body.jsonFields, Body.int, JsValue.get, isoTime_ok htime, mem_attemptOutcomes]
  · simp [Body.json, Body.jsonFields, Body.int, JsValue.body, JsValue.bodyFields]

/-- The stock a purchase reports is not negative. -/
theorem purchase_stock_nonneg (s : Sale) (u r : String) (t : RedisTime)
    (h : (purchase s u r t).1.outcome ≠ .notInitialized) :
    0 ≤ (purchase s u r t).1.stockRemaining := by
  unfold purchase at h ⊢
  cases hc : s.config with
  | none =>
    rw [hc] at h
    exact absurd rfl h
  | some cfg =>
    dsimp only
    split_ifs with h1 h2 h3 h4
    · exact le_max_right _ _
    · exact le_max_right _ _
    · exact le_max_right _ _
    · exact le_rfl
    · have hunit : 0 < s.stock.getD 0 := by
        by_contra hle
        exact h4 (max_le (Number.ofInt_nonpos (not_lt.1 hle)) le_rfl)
      exact Number.ofInt_nonneg (by omega)

theorem purchaseDecision_stock {guard : Option (GuardOutcome × ℤ)} (saleId : String) (s : Sale)
    (u r : String) (t : RedisTime) {stored : Except Failure PurchaseResult}
    (hstored : ∀ result, stored = .ok result → storePurchase saleId s u r t = .ok result) (nowMs : ℤ)
    {n : ℤ} (h : (purchaseDecision guard stored nowMs).stockRemaining = some n) : 0 ≤ n := by
  unfold purchaseDecision at h
  cases guard with
  | some g => cases h
  | none =>
    cases stored with
    | error e => cases h
    | ok result =>
      have hresult := hstored result rfl
      unfold storePurchase at hresult
      cases hsale : assertSaleId saleId with
      | error e => rw [hsale] at hresult; cases hresult
      | ok x =>
        rw [hsale] at hresult
        obtain rfl := Except.ok.inj hresult
        dsimp only at h
        split_ifs at h with hinit
        obtain rfl := Option.some.inj h
        exact purchase_stock_nonneg s u r t hinit

theorem agrees_purchaseStatus {status : PurchaseStatus} {userId saleId : String} {nowMs : ℤ}
    {body : Body} (h : status.body userId saleId nowMs = some (.ok body)) :
    Agrees (decodePurchaseStatus date) body := by
  unfold decodePurchaseStatus orderAccepted
  cases status with
  | recorded st createdAtMs =>
    obtain ⟨createdAt, hcreated, h⟩ := bind_eq_ok (Option.some.inj h)
    obtain ⟨serverTime, htime, h⟩ := bind_eq_ok h
    obtain rfl := Except.ok.inj h
    have hiso : (JsValue.string createdAt).isIso date = true := isoTime_ok hcreated
    cases st with
    | persisted =>
      refine Agrees.intro ?_ ?_
      · simp [Body.json, Body.jsonFields, Body.int, JsValue.get, isoTime_ok htime, hiso,
          PurchaseStatus.purchased, DurableOrderStatus.text, ORDER_STATUSES]
      · simp [Body.json, Body.jsonFields, Body.int, JsValue.body, JsValue.bodyFields]
    | compensated =>
      refine Agrees.intro ?_ ?_
      · simp [Body.json, Body.jsonFields, Body.int, JsValue.get, isoTime_ok htime, hiso,
          PurchaseStatus.purchased, DurableOrderStatus.text, ORDER_STATUSES]
      · simp [Body.json, Body.jsonFields, Body.int, JsValue.body, JsValue.bodyFields]
  | inRedis =>
    obtain ⟨serverTime, htime, h⟩ := bind_eq_ok (Option.some.inj h)
    obtain rfl := Except.ok.inj h
    refine Agrees.intro ?_ ?_
    · simp [Body.json, Body.jsonFields, Body.int, JsValue.get, isoTime_ok htime,
        PurchaseStatus.purchased, ORDER_STATUSES]
    · simp [Body.json, Body.jsonFields, Body.int, JsValue.body, JsValue.bodyFields]
  | absent =>
    obtain ⟨serverTime, htime, h⟩ := bind_eq_ok (Option.some.inj h)
    obtain rfl := Except.ok.inj h
    refine Agrees.intro ?_ ?_
    · simp [Body.json, Body.jsonFields, Body.int, JsValue.get, isoTime_ok htime,
        PurchaseStatus.purchased]
    · simp [Body.json, Body.jsonFields, Body.int, JsValue.body, JsValue.bodyFields]
  | unavailable => cases h

/-! ## Readiness -/

/-- The wall clock did not go back during the check. -/
def TimedCheck.Forward (check : Option TimedCheck) : Prop :=
  ∀ c, check = some c → c.start ≤ c.settledAt

/-- The clock has synced, and no check has a negative latency. -/
structure ReadinessProbe.Clear (p : ReadinessProbe) : Prop where
  synced : p.clock.lastSyncAtMs.isSome = true
  redis : TimedCheck.Forward p.redis
  postgres : TimedCheck.Forward p.postgres

theorem latencyCheck_json (check : Option TimedCheck) : ∃ ok latencyMs,
    (latencyCheck check).json = .object [("ok", .bool ok), ("latencyMs", latencyMs)] ∧
      (latencyMs.isLatency = true ↔ TimedCheck.Forward check) ∧
      ((latencyCheck check).json.body = latencyCheck check) := by
  cases check with
  | none =>
    refine ⟨false, .null, ?_, ?_, ?_⟩
    · simp [latencyCheck, Body.json, Body.jsonFields]
    · simp [TimedCheck.Forward]
    · simp [latencyCheck, Body.json, Body.jsonFields, JsValue.body, JsValue.bodyFields]
  | some c =>
    refine ⟨c.ok, .number (c.settledAt - c.start : ℤ), ?_, ?_, ?_⟩
    · simp [latencyCheck, Body.json, Body.jsonFields, Body.int]
    · rw [isLatency_number, decide_eq_true_eq, Int.cast_nonneg_iff, sub_nonneg]
      simp [TimedCheck.Forward]
    · simp [latencyCheck, Body.json, Body.jsonFields, Body.int, JsValue.body, JsValue.bodyFields]

theorem checkClock_json (p : ReadinessProbe) : ∃ ok offsetMs rttMs ageMs,
    p.checkClock.json = .object [("ok", .bool ok), ("offsetMs", .number offsetMs),
        ("rttMs", .number rttMs), ("ageMs", ageMs)] ∧
      (ageMs.isFinite = true ↔ p.clock.lastSyncAtMs.isSome = true) ∧
      (p.clock.lastSyncAtMs.isSome = true → p.checkClock.json.body = p.checkClock) := by
  cases hsync : p.clock.lastSyncAtMs with
  | none =>
    refine ⟨p.clock.isFresh p.CLOCK_MAX_STALENESS_MS p.freshAt, p.clock.offsetMs, p.clock.rttMs,
      .null, ?_, ?_, ?_⟩
    · simp [ReadinessProbe.checkClock, AnchoredClock.ageMs, hsync, Body.json, Body.jsonFields,
        Body.int]
    · simp
    · simp
  | some lastSyncAtMs =>
    refine ⟨p.clock.isFresh p.CLOCK_MAX_STALENESS_MS p.freshAt, p.clock.offsetMs, p.clock.rttMs,
      .number (p.ageAt - lastSyncAtMs : ℤ), ?_, ?_, ?_⟩
    · simp [ReadinessProbe.checkClock, AnchoredClock.ageMs, hsync, Body.json, Body.jsonFields,
        Body.int]
    · simp
    · simp [ReadinessProbe.checkClock, AnchoredClock.ageMs, hsync, Body.json, Body.jsonFields,
        Body.int, JsValue.body, JsValue.bodyFields]

theorem checkSale_json (p : ReadinessProbe) : ∃ ok initialized stockKeyPresent,
    p.checkSale.json = .object [("ok", .bool ok), ("initialized", .bool initialized),
        ("stockKeyPresent", .bool stockKeyPresent)] ∧
      p.checkSale.json.body = p.checkSale := by
  refine ⟨p.saleFlags.2, p.saleFlags.1, p.saleFlags.2, ?_, ?_⟩
  · simp [ReadinessProbe.checkSale, Body.json, Body.jsonFields]
  · simp [ReadinessProbe.checkSale, Body.json, Body.jsonFields, JsValue.body, JsValue.bodyFields]

theorem checkQueue_json (p : ReadinessProbe) : ∃ (ok : Bool) (waiting active delayed failed : ℕ),
    p.checkQueue.json = .object [("ok", .bool ok), ("waiting", .number waiting),
        ("active", .number active), ("delayed", .number delayed), ("failed", .number failed)] ∧
      p.checkQueue.json.body = p.checkQueue := by
  -- A failed query and a query out of its budget report zeros.
  obtain ⟨ok, depth, h⟩ : ∃ ok depth, p.checkQueue = .object [("ok", .bool ok),
      ("waiting", .int (depth : QueueDepth).waiting), ("active", .int depth.active),
      ("delayed", .int depth.delayed), ("failed", .int depth.failed)] := ⟨_, _, rfl⟩
  refine ⟨ok, depth.waiting, depth.active, depth.delayed, depth.failed, ?_, ?_⟩
  · simp [h, Body.json, Body.jsonFields, Body.int]
  · simp [h, Body.json, Body.jsonFields, Body.int, JsValue.body, JsValue.bodyFields]

theorem agrees_readiness {p : ReadinessProbe} {body : Body} (h : p.getReadiness = .ok body) :
    Agrees (decodeReadiness date) body ↔ p.Clear := by
  obtain ⟨serverTime, htime, h⟩ := bind_eq_ok h
  obtain ⟨redisOk, redisMs, hredis, hredisMs, hredisSame⟩ := latencyCheck_json p.redis
  obtain ⟨postgresOk, postgresMs, hpostgres, hpostgresMs, hpostgresSame⟩ :=
    latencyCheck_json p.postgres
  obtain ⟨clockOk, offsetMs, rttMs, ageMs, hclock, hage, hclockSame⟩ := checkClock_json p
  obtain ⟨saleOk, initialized, stockKeyPresent, hsale, hsaleSame⟩ := checkSale_json p
  obtain ⟨queueOk, waiting, active, delayed, failed, hqueue, hqueueSame⟩ := checkQueue_json p
  have hbody : body.json = .object
      [("status", .string (if p.healthy then "ok" else "degraded")), ("service", .string "api"),
        ("version", .string "0.0.0"), ("uptimeSeconds", .number p.uptimeSeconds),
        ("checks", .object [("redis", (latencyCheck p.redis).json),
          ("postgres", (latencyCheck p.postgres).json), ("clock", p.checkClock.json),
          ("sale", p.checkSale.json), ("queue", p.checkQueue.json)]),
        ("requestId", .string p.requestId), ("serverTime", .string serverTime),
        ("serverTimeMs", .number (p.clock.nowMs p.now : ℤ))] := by
    obtain rfl := Except.ok.inj h
    simp [Body.json, Body.int, Body.jsonFields_cons, Body.jsonFields, hredis, hpostgres, hclock,
      hsale, hqueue]
  have huptime : ¬p.uptimeSeconds < 0 := not_lt.mpr p.uptime_nonneg
  have hdecode (value : JsValue) : decodeReadiness date body.json = some value ↔
      (redisMs.isLatency = true ∧ postgresMs.isLatency = true ∧ ageMs.isFinite = true) ∧
        body.json = value := by
    unfold decodeReadiness
    simp [hbody, hredis, hpostgres, hclock, hsale, hqueue, JsValue.get, isoTime_ok htime, huptime,
      and_assoc]
  constructor
  · rintro ⟨value, hvalue, -⟩
    obtain ⟨⟨h1, h2, h3⟩, -⟩ := (hdecode value).mp hvalue
    exact ⟨hage.mp h3, hredisMs.mp h1, hpostgresMs.mp h2⟩
  · intro hclear
    apply Agrees.intro
    · rw [hdecode]
      exact ⟨⟨hredisMs.mpr hclear.redis, hpostgresMs.mpr hclear.postgres,
        hage.mpr hclear.synced⟩, rfl⟩
    · rw [hbody, ← Except.ok.inj h]
      simp only [JsValue.body, JsValue.bodyFields, hredisSame, hpostgresSame,
        hclockSame hclear.synced, hsaleSame, hqueueSame, Body.int]

/-! ## Requests -/

/-- A request of the web client, with what it meets at the stores and the clock of the API. -/
inductive ApiCall where
  | saleStatus (t : RedisTime)
  /-- `failure` is the store out of reach, whether or not the script ran. -/
  | purchase (userId fresh : String) (t : RedisTime) (guard : Option (GuardOutcome × ℤ))
      (failure : Option Failure) (nowMs : ℤ)
  | invalidUserId (rawUserId : String) (nowMs : ℤ)
  | rateLimited (userId : String) (nowMs : ℤ)
  | purchaseStatus (userId : String) (row : Except Failure (Option DurableOrder))
      (hasPurchased : Except Failure Bool) (nowMs : ℤ)
  | readiness (probe : ReadinessProbe)

namespace ApiCall

/-- The body of the answer. There is none for an answer of the error kind: 503 for the two status
routes, 500 for a time that is not a date. -/
def respond (saleId : String) (s : Sale) : ApiCall → Option Body
  | .saleStatus t => (getSaleStatus saleId s t).toOption
  | .purchase userId fresh t guard failure nowMs =>
    let stored := match failure with
      | some e => .error e
      | none => storePurchase saleId s userId fresh t
    let decision := purchaseDecision guard stored nowMs
    (buildPurchaseEnvelope decision.outcome userId saleId decision.stockRemaining
      decision.serverTimeMs).toOption
  | .invalidUserId rawUserId nowMs =>
    (errorEnvelope .invalidUserId (sanitizeUserIdEcho rawUserId) saleId nowMs).toOption
  | .rateLimited userId nowMs => (errorEnvelope .rateLimited userId saleId nowMs).toOption
  | .purchaseStatus userId row hasPurchased nowMs =>
    ((FlashSale.purchaseStatus row hasPurchased).body userId saleId nowMs).bind (·.toOption)
  | .readiness probe => probe.getReadiness.toOption

/-- The decoder the client applies to the answer. -/
def decode (date : JsDate) : ApiCall → JsValue → Option JsValue
  | .saleStatus _ => decodeSaleStatus date
  | .purchase .. | .invalidUserId .. | .rateLimited .. => decodePurchase date
  | .purchaseStatus .. => decodePurchaseStatus date
  | .readiness _ => decodeReadiness date

/-- A readiness call meets a clock that has synced, and a wall clock that goes forward. -/
def Clear : ApiCall → Prop
  | .readiness probe => probe.Clear
  | _ => True

end ApiCall

theorem toOption_eq_some {x : Except Failure Body} {body : Body} (h : x.toOption = some body) :
    x = .ok body := by
  cases x with
  | error e => cases h
  | ok b =>
    obtain rfl := Option.some.inj h
    rfl

/-- On every state the scripts can reach, the client reads back the body of the API exactly when the
call is clear. -/
theorem api_bodies_agree_iff {calls : List ScriptCall} (hcalls : ∀ c ∈ calls, c.Issued date)
    {saleId : String} {call : ApiCall} {body : Body}
    (h : call.respond saleId (saleAfter calls) = some body) :
    Agrees (call.decode date) body ↔ call.Clear := by
  cases call with
  | saleStatus t => exact iff_of_true (agrees_saleStatus hcalls (toOption_eq_some h)) trivial
  | purchase userId fresh t guard failure nowMs =>
    refine iff_of_true (agrees_envelope ?_ (toOption_eq_some h)) trivial
    intro n hn
    apply purchaseDecision_stock saleId (saleAfter calls) userId fresh t ?_ nowMs hn
    intro result hresult
    cases failure with
    | some e => cases hresult
    | none => exact hresult
  | invalidUserId rawUserId nowMs =>
    exact iff_of_true (agrees_errorEnvelope (toOption_eq_some h)) trivial
  | rateLimited userId nowMs =>
    exact iff_of_true (agrees_errorEnvelope (toOption_eq_some h)) trivial
  | purchaseStatus userId row hasPurchased nowMs =>
    obtain ⟨x, hx, h⟩ := Option.bind_eq_some_iff.mp h
    rw [toOption_eq_some h] at hx
    exact iff_of_true (agrees_purchaseStatus hx) trivial
  | readiness probe => exact agrees_readiness (toOption_eq_some h)

/-- A probe that meets `clock`, with both stores answering in a millisecond. -/
def probeOf (clock : AnchoredClock) : ReadinessProbe where
  redis := some ⟨1500, 1501, true⟩
  postgres := some ⟨1500, 1501, true⟩
  clock
  CLOCK_MAX_STALENESS_MS := 15000
  freshAt := 1501
  ageAt := 1501
  now := 1501
  sale := some ((saleAfter [auroraSeed]).status ⟨1, 501000⟩)
  queue := some (.ok ⟨0, 0, 0, 0⟩)
  uptimeSeconds := 1
  uptime_nonneg := by norm_num
  requestId := "r-1"

theorem probeOf_answered {clock : AnchoredClock}
    (h : |1501 + clock.offsetMs| ≤ Date.MAX_TIME_VALUE) (s : Sale) :
    ∃ body, (probeOf clock).getReadiness = .ok body ∧
      (ApiCall.readiness (probeOf clock)).respond "flash-2026" s = some body := by
  have hready : ∃ body, (probeOf clock).getReadiness = .ok body := by
    have htime : isoTime ((probeOf clock).clock.nowMs (probeOf clock).now) =
        .ok (Date.toISOString (1501 + clock.offsetMs)) := if_pos h
    simp only [ReadinessProbe.getReadiness, htime]
    exact ⟨_, rfl⟩
  obtain ⟨body, hbody⟩ := hready
  refine ⟨body, hbody, ?_⟩
  simp only [ApiCall.respond, hbody]
  rfl

theorem auroraSeed_calls_issued : ∀ c ∈ [auroraSeed], ScriptCall.Issued isoDate c := by
  intro c hc
  obtain rfl := List.mem_singleton.mp hc
  exact auroraSeed_issued

/-- A clock after one sync. -/
def syncedClock : AnchoredClock := (⟨[], none, none⟩ : AnchoredClock).record 1500 1498 1500

/-- Once the clock has synced, the body of the probe is read. -/
theorem api_bodies_agree_iff_synced : ∃ body,
    (ApiCall.readiness (probeOf syncedClock)).respond "flash-2026" (saleAfter [auroraSeed]) =
        some body ∧
      Agrees (decodeReadiness isoDate) body := by
  obtain ⟨body, -, h⟩ := probeOf_answered (show |1501 + syncedClock.offsetMs| ≤ _ by decide +kernel)
    (saleAfter [auroraSeed])
  refine ⟨body, h, (api_bodies_agree_iff auroraSeed_calls_issued h).mpr ⟨rfl, ?_, ?_⟩⟩
  · rintro c ⟨⟩
    decide
  · rintro c ⟨⟩
    decide

/-- Before the first sync the age of the clock is infinite, `null` in the body, and refused. -/
theorem unsynced_readiness_refused : (∀ c ∈ [auroraSeed], ScriptCall.Issued isoDate c) ∧ ∃ body,
    (ApiCall.readiness (probeOf ⟨[], none, none⟩)).respond "flash-2026" (saleAfter [auroraSeed]) =
        some body ∧
      ¬Agrees (decodeReadiness isoDate) body := by
  refine ⟨auroraSeed_calls_issued, ?_⟩
  obtain ⟨body, hbody, h⟩ := probeOf_answered
    (show |1501 + (⟨[], none, none⟩ : AnchoredClock).offsetMs| ≤ _ by decide +kernel)
    (saleAfter [auroraSeed])
  refine ⟨body, h, ?_⟩
  intro hagrees
  exact absurd ((agrees_readiness hbody).mp hagrees).synced (by decide)

end FlashSale
