import FlashSale.Api.RateLimit
import FlashSale.Lib.Text

/-!
# Answers of the API

Every request ends in one reply. A handler answers by itself; whatever a hook, the body parser, a
guard, a pipe or a handler throws is turned into a reply by `HttpExceptionFilter`, the only place that
shapes the body of an error. A header set before the throw stays on the reply.

A reply that cannot be built (a clock outside the range of a `Date` while the filter runs) is an error
here. A failure inside a handler is an exception like any other.
-/

namespace FlashSale

structure HttpReply where
  status : ℕ
  retryAfter : Option String
  body : Body

/-! ## Codes and messages -/

/-- `ApiErrorCode`. -/
inductive ApiErrorCode where
  | outcome (outcome : AttemptOutcome)
  | notFound
  | internal
  deriving DecidableEq, Repr

def ApiErrorCode.text : ApiErrorCode → String
  | .outcome o => o.text
  | .notFound => "NOT_FOUND"
  | .internal => "INTERNAL"

/-- `messageFor`. -/
def ApiErrorCode.messageFor : ApiErrorCode → String
  | .outcome o => o.messageFor
  | .notFound => "Not found."
  | .internal => "Internal error"

/-- `PURCHASE_OUTCOME_HTTP_STATUS`. -/
def AttemptOutcome.httpStatus : AttemptOutcome → ℕ
  | .confirmed => 201
  | .alreadyPurchased => 409
  | .soldOut => 410
  | .saleNotStarted => 403
  | .saleEnded => 403
  | .notInitialized => 503
  | .invalidUserId => 422
  | .rateLimited => 429
  | .upstreamUnavailable => 503

def AttemptOutcome.all : List AttemptOutcome :=
  [.confirmed, .alreadyPurchased, .soldOut, .saleNotStarted, .saleEnded, .notInitialized,
    .invalidUserId, .rateLimited, .upstreamUnavailable]

/-- The outcome a text names, if `isAttemptOutcome` holds of it. -/
def AttemptOutcome.ofText? (text : String) : Option AttemptOutcome :=
  AttemptOutcome.all.find? fun outcome => outcome.text == text

theorem AttemptOutcome.text_injective {a b : AttemptOutcome} (h : a.text = b.text) : a = b := by
  cases a <;> cases b <;> first | rfl | (revert h; decide)

@[simp] theorem AttemptOutcome.ofText?_text (outcome : AttemptOutcome) :
    AttemptOutcome.ofText? outcome.text = some outcome := by
  cases outcome <;> decide

/-- `buildApiErrorResponse`. -/
def buildApiErrorResponse (error : ApiErrorCode) (requestId : String) (serverTimeMs : ℤ) :
    Except Failure Body := do
  let serverTime ← isoTime serverTimeMs
  return .object [("error", .string error.text), ("message", .string error.messageFor),
    ("requestId", .string requestId), ("serverTime", .string serverTime),
    ("serverTimeMs", .int serverTimeMs)]

/-! ## What is thrown -/

/-- What the filter reads of an `HttpException`. -/
structure HttpException where
  status : ℕ
  response : JsValue
  /-- It is a `NotFoundException`. -/
  notFound : Bool
  code : Option String

/-- A thrown value as the filter looks at it. -/
inductive Thrown where
  | syntaxError
  /-- A plain object, with its own `statusCode` that is not enumerable. -/
  | object (statusCode : Option ℕ) (fields : List (String × JsValue))
  | http (exception : HttpException)
  /-- Any other error, with its `code`. -/
  | other (code : Option String)

def FASTIFY_BODY_PARSE_ERROR_CODES : List String :=
  ["FST_ERR_CTP_INVALID_MEDIA_TYPE", "FST_ERR_CTP_EMPTY_JSON_BODY", "FST_ERR_CTP_INVALID_JSON_BODY",
    "FST_ERR_CTP_BODY_TOO_LARGE"]

def FASTIFY_BODY_PARSE_MESSAGES : List String :=
  ["Body is not valid JSON but content-type is set to 'application/json'",
    "Body cannot be empty when content-type is set to 'application/json'",
    "Request body is too large", "Unsupported Media Type"]

/-- `err.code`, when it is a string. -/
def Thrown.code : Thrown → Option String
  | .syntaxError => none
  | .object _ fields => (JsValue.get fields "code").asString
  | .http exception => exception.code
  | .other code => code

def isBodyParseFailure (err : Thrown) : Bool :=
  match err with
  | .syntaxError => true
  | _ =>
    err.code.any (FASTIFY_BODY_PARSE_ERROR_CODES.contains ·) ||
      match err with
      | .http ⟨_, .string response, _, _⟩ => FASTIFY_BODY_PARSE_MESSAGES.contains response
      | _ => false

/-- `isRateLimitedEnvelope`, with the status and the body to send. -/
def rateLimitedEnvelope : Thrown → Option (ℕ × JsValue)
  | .object (some statusCode) fields =>
    if (JsValue.get fields "status").asString = some "RATE_LIMITED" ∨
        (JsValue.get fields "error").asString = some "RATE_LIMITED" then
      some (statusCode, .object fields)
    else none
  | _ => none

/-- `OutcomeExceptionPayload`, without the `issues` that are only logged. -/
structure OutcomeExceptionPayload where
  outcome : String
  rawUserId : Option String
  userId : Option String

/-- `extractOutcomePayload`; a read off an array is `undefined`. -/
def extractOutcomePayload : JsValue → Option OutcomeExceptionPayload
  | .object fields =>
    (JsValue.get fields "outcome").asString.map fun outcome =>
      ⟨outcome, (JsValue.get fields "rawUserId").asString, (JsValue.get fields "userId").asString⟩
  | _ => none

/-! ## The filter -/

def PURCHASE_ROUTE_PATH : String := "/api/purchase"

def requestPath (url : String) : String := Text.beforeFirst '?' url

/-- What the hooks, the parser and the filter know of a request. -/
structure Arrival where
  SALE_ID : String
  url : String
  requestId : String
  /-- The reading of the clock when something is thrown. -/
  serverTimeMs : ℤ

namespace Arrival

variable (a : Arrival)

def sendApiError (retryAfter : Option String) (status : ℕ) (error : ApiErrorCode) :
    Except Failure HttpReply := do
  let body ← buildApiErrorResponse error a.requestId a.serverTimeMs
  return ⟨status, retryAfter, body⟩

/-- `respond`: the purchase route has an envelope of its own. -/
def respond (retryAfter : Option String) (status : ℕ) (outcome : AttemptOutcome) (userId : String) :
    Except Failure HttpReply :=
  if requestPath a.url = PURCHASE_ROUTE_PATH then do
    let body ← errorEnvelope outcome userId a.SALE_ID a.serverTimeMs
    return ⟨status, retryAfter, body⟩
  else a.sendApiError retryAfter status (.outcome outcome)

/-- `HttpExceptionFilter.catch`. -/
def catchException (retryAfter : Option String) (exception : Thrown) : Except Failure HttpReply :=
  if isBodyParseFailure exception then a.respond retryAfter 422 .invalidUserId ""
  else match rateLimitedEnvelope exception with
    | some (status, body) => .ok ⟨status, retryAfter, body.body⟩
    | none =>
      match exception with
      | .http e =>
        match (extractOutcomePayload e.response).bind fun payload =>
          (AttemptOutcome.ofText? payload.outcome).map fun outcome => (payload, outcome) with
        | some (payload, outcome) =>
          let echoUserId :=
            if outcome = .invalidUserId then sanitizeUserIdEcho (payload.rawUserId.getD "")
            else payload.userId.getD ""
          a.respond retryAfter e.status outcome echoUserId
        | none =>
          if e.notFound then a.sendApiError retryAfter 404 .notFound
          else
            let safeStatus := if 400 ≤ e.status ∧ e.status < 600 then e.status else 500
            a.sendApiError retryAfter safeStatus .internal
      | _ => a.sendApiError retryAfter 500 .internal

/-- `buildRateLimitedThrowable`; it throws itself when the clock is out of range. -/
def buildRateLimitedThrowable : Thrown :=
  let body := if requestPath a.url = PURCHASE_ROUTE_PATH then
      errorEnvelope .rateLimited "" a.SALE_ID a.serverTimeMs
    else buildApiErrorResponse (.outcome .rateLimited) a.requestId a.serverTimeMs
  match body.map Body.json with
  | .ok (.object fields) => .object (some 429) fields
  | _ => .other none

/-- A request from its first hook to the reply. `limited` is the answer of the limiter per address:
`some header` refuses, with its `Retry-After` header. -/
def answer (limited : Option (Option String))
    (handler : Except (Thrown × Option String) HttpReply) : Except Failure HttpReply :=
  match limited with
  | some retryAfter => a.catchException retryAfter a.buildRateLimitedThrowable
  | none =>
    match handler with
    | .ok reply => .ok reply
    | .error (exception, retryAfter) => a.catchException retryAfter exception

end Arrival

/-- What a handler throws when a step of it fails. -/
def Failure.thrown : Failure → Thrown
  | .error "NOT_INITIALIZED" =>
    .http ⟨503, .object [("outcome", .string "NOT_INITIALIZED")], false, none⟩
  | _ => .other none

/-- `extractRawUserId`. -/
def extractRawUserId : JsValue → String
  | .object fields => (JsValue.get fields "userId").asString.getD ""
  | _ => ""

/-- The exception of `ZodValidationPipe.transform`. -/
def invalidUserIdException (value : JsValue) : Thrown :=
  .http ⟨422, .object [("outcome", .string "INVALID_USER_ID"),
    ("rawUserId", .string (extractRawUserId value))], false, none⟩

/-- The exception of `PerUserRateLimitGuard.reject`. -/
def RateLimitRejection.thrown (r : RateLimitRejection) : Thrown :=
  .http ⟨r.status, .object [("outcome", .string r.outcome.text), ("userId", .string r.userId)], false,
    none⟩

def RETRY_AFTER_SECONDS : String := "1"

/-- `RETRY_AFTER_SECONDS` on the unavailable statuses. -/
def retryAfterOf (status : ℕ) : Option String :=
  if status = 503 then some RETRY_AFTER_SECONDS else none

/-! ## Routes -/

/-- How reading the body fails: with a `SyntaxError`, with an error of Fastify, or with the exception
Nest makes of such an error, whose response is the message. -/
inductive ParseFailure where
  | syntaxError
  | raw (code : Option String)
  | wrapped (status : ℕ) (message : String)

def ParseFailure.thrown : ParseFailure → Thrown
  | .syntaxError => .syntaxError
  | .raw code => .other code
  | .wrapped status message => .http ⟨status, .string message, false, none⟩

/-- What a `POST /api/purchase` meets: the parsed body, the limiter's keys, the verdict of the guard,
the store and the clock. -/
structure PostPurchaseCall where
  parsed : Except ParseFailure JsValue
  ip : Option String
  keys : LimiterKeys
  limiterNow : ℕ
  guard : Option (GuardOutcome × ℤ)
  /-- The store out of reach, whether or not the script ran. -/
  failure : Option Failure
  fresh : String
  t : RedisTime
  nowMs : ℤ

/-- The answer of the store to a call. -/
def PostPurchaseCall.stored (p : PostPurchaseCall) (saleId : String) (s : Sale) (userId : String) :
    Except Failure PurchaseResult :=
  match p.failure with
  | some e => .error e
  | none => storePurchase saleId s userId p.fresh p.t

/-- `PurchaseController.create` behind its parser, guard and pipe. -/
def postPurchase (env : PerUserRateLimitEnv) (s : Sale) (p : PostPurchaseCall) :
    Except (Thrown × Option String) HttpReply :=
  match p.parsed with
  | .error e => .error (e.thrown, none)
  | .ok body =>
    match (canActivate env p.keys p.limiterNow ⟨body, p.ip⟩).1 with
    | .error rejection => .error (rejection.thrown, rejection.headers.lookup "retry-after")
    | .ok () =>
      match purchaseRequestSchema body with
      | none => .error (invalidUserIdException body, none)
      | some userId =>
        let decision := purchaseDecision p.guard (p.stored env.SALE_ID s userId) p.nowMs
        match buildPurchaseEnvelope decision.outcome userId env.SALE_ID decision.stockRemaining
            decision.serverTimeMs with
        | .error e => .error (e.thrown, none)
        | .ok envelope =>
          .ok ⟨decision.outcome.httpStatus, retryAfterOf decision.outcome.httpStatus, envelope⟩

/-- `SaleController.getStatus`. -/
def getSaleStatusRoute (saleId : String) (s : Sale) (failure : Option Failure) (t : RedisTime) :
    Except (Thrown × Option String) HttpReply :=
  let body : Except Failure Body := match failure with
    | some e => .error e
    | none => getSaleStatus saleId s t
  match body with
  | .ok body => .ok ⟨200, none, body⟩
  | .error e => .error (e.thrown, none)

/-- `SALE_METRIC_FIELDS`. -/
def SALE_METRIC_FIELDS : List String :=
  ["confirmed", "already_purchased", "sold_out", "sale_not_active", "not_initialized", "rate_limited",
    "invalid_user_id"]

/-- `SaleService.getMetrics` on the counters of the metrics hash. -/
def getMetrics (saleId : String) (raw : String → Option ℕ) (nowMs : ℤ) : Except Failure Body := do
  assertSaleId saleId
  let serverTime ← isoTime nowMs
  return .object [("saleId", .string saleId),
    ("metrics", .object (SALE_METRIC_FIELDS.map fun field => (field, .int ((raw field).getD 0)))),
    ("serverTime", .string serverTime), ("serverTimeMs", .int nowMs)]

/-- `SaleController.getMetrics`. -/
def getMetricsRoute (saleId : String) (raw : Except Failure (String → Option ℕ)) (nowMs : ℤ) :
    Except (Thrown × Option String) HttpReply :=
  match raw.bind fun raw => getMetrics saleId raw nowMs with
  | .ok body => .ok ⟨200, none, body⟩
  | .error e => .error (e.thrown, none)

/-- What a `GET /api/purchase/:userId` meets. -/
structure StatusCall where
  param : String
  row : Except Failure (Option DurableOrder)
  hasPurchased : Except Failure Bool
  nowMs : ℤ

/-- `PurchaseController.status` behind its pipe. -/
def getPurchaseStatusRoute (saleId requestId : String) (p : StatusCall) :
    Except (Thrown × Option String) HttpReply :=
  match userIdSchema (.string p.param) with
  | none => .error (invalidUserIdException (.object [("userId", .string p.param)]), none)
  | some userId =>
    let answered : Except Failure (ℕ × Body) :=
      match (purchaseStatus p.row p.hasPurchased).body userId saleId p.nowMs with
      | some body => body.map fun body => (200, body)
      | none =>
        (buildApiErrorResponse (.outcome .upstreamUnavailable) requestId p.nowMs).map fun body =>
          (AttemptOutcome.upstreamUnavailable.httpStatus, body)
    match answered with
    | .ok (status, body) => .ok ⟨status, retryAfterOf status, body⟩
    | .error e => .error (e.thrown, none)

/-- `HealthController.getHealth`. -/
def getHealthRoute (uptimeSeconds : ℚ) : HttpReply := ⟨200, none, getLiveness uptimeSeconds⟩

/-- `HealthController.getReadiness`. -/
def getReadinessRoute (p : ReadinessProbe) : Except (Thrown × Option String) HttpReply :=
  match p.getReadiness with
  | .ok body =>
    .ok (if p.healthy then ⟨200, none, body⟩ else ⟨503, some RETRY_AFTER_SECONDS, body⟩)
  | .error e => .error (e.thrown, none)

/-! ## Replies to what is thrown -/

/-- A text the filter may echo. -/
def EchoSafe (userId : String) : Prop :=
  userId.toList.all isUserIdChar = true ∧ jsLength userId ≤ USER_ID_MAX_LENGTH

theorem echoSafe_empty : EchoSafe "" := ⟨by decide, by decide⟩

theorem takeUnits_units (n : ℕ) (cs : List Char) :
    ((takeUnits n cs).map fun c => if c.toNat < 0x10000 then 1 else 2).sum ≤ n := by
  fun_induction takeUnits n cs with
  | case1 => exact Nat.zero_le _
  | case2 => exact Nat.zero_le _
  | case3 n c cs units hlt ih =>
    rw [List.map_cons, List.sum_cons]
    show units + _ ≤ n
    omega

theorem echoSafe_sanitize (raw : String) : EchoSafe (sanitizeUserIdEcho raw) := by
  unfold sanitizeUserIdEcho EchoSafe jsLength
  rw [String.toList_ofList]
  refine ⟨List.all_eq_true.2 fun c hc => (List.mem_filter.1 hc).2, ?_⟩
  refine le_trans ?_ (takeUnits_units USER_ID_MAX_LENGTH raw.toList)
  exact (List.filter_sublist.map _).sum_le_sum fun _ _ => Nat.zero_le _

theorem echoSafe_of_extract {body : JsValue} {u : String}
    (h : extractRateLimitCandidateUserId body = some u) : EchoSafe u := by
  unfold extractRateLimitCandidateUserId at h
  dsimp only at h
  split at h
  · split_ifs at h with hlength hpattern
    obtain rfl := Option.some.inj h
    unfold userIdPattern at hpattern
    simp only [Bool.not_eq_true', Bool.and_eq_false_iff, not_or, Bool.not_eq_false] at hpattern
    exact ⟨hpattern.2, by omega⟩
  · cases h

/-- What the reply to a thrown value is: the envelope or the error of a fixed outcome, which echoes a
safe text at most, or the error `INTERNAL`. -/
def Arrival.IsErrorReply (a : Arrival) (retryAfter : Option String) (reply : HttpReply) : Prop :=
  (∃ outcome userId, outcome ≠ .confirmed ∧ EchoSafe userId ∧
    a.respond retryAfter outcome.httpStatus outcome userId = .ok reply) ∨
  ∃ status, 400 ≤ status ∧ status < 600 ∧ a.sendApiError retryAfter status .internal = .ok reply

namespace Arrival

variable {a : Arrival} {retryAfter : Option String} {reply : HttpReply}

theorem isErrorReply_other {code : Option String}
    (h : a.catchException retryAfter (.other code) = .ok reply) :
    a.IsErrorReply retryAfter reply := by
  unfold catchException at h
  split_ifs at h
  · exact .inl ⟨.invalidUserId, "", by decide, echoSafe_empty, h⟩
  · exact .inr ⟨500, by decide, by decide, h⟩

theorem isErrorReply_failure {e : Failure} (h : a.catchException retryAfter e.thrown = .ok reply) :
    a.IsErrorReply retryAfter reply := by
  unfold Failure.thrown at h
  split at h
  · refine .inl ⟨.notInitialized, "", by decide, echoSafe_empty, ?_⟩
    rw [← h]
    rfl
  · exact isErrorReply_other h

theorem isErrorReply_parse {e : ParseFailure} (h : a.catchException retryAfter e.thrown = .ok reply) :
    a.IsErrorReply retryAfter reply := by
  cases e with
  | syntaxError => exact .inl ⟨.invalidUserId, "", by decide, echoSafe_empty, h⟩
  | raw code => exact isErrorReply_other h
  | wrapped status message =>
    unfold ParseFailure.thrown catchException at h
    split_ifs at h
    · exact .inl ⟨.invalidUserId, "", by decide, echoSafe_empty, h⟩
    · refine .inr ⟨if 400 ≤ status ∧ status < 600 then status else 500, ?_, ?_, h⟩
      · split_ifs <;> omega
      · split_ifs <;> omega

theorem catch_invalidUserId (retryAfter : Option String) (value : JsValue) :
    a.catchException retryAfter (invalidUserIdException value) =
      a.respond retryAfter 422 .invalidUserId (sanitizeUserIdEcho (extractRawUserId value)) := rfl

theorem catch_rejection (env : PerUserRateLimitEnv) (retryAfter : Option String) (seconds : ℕ)
    (candidate : String) : a.catchException retryAfter (reject env seconds candidate).thrown =
      a.respond retryAfter 429 .rateLimited candidate := rfl

theorem isErrorReply_invalidUserId {value : JsValue}
    (h : a.catchException retryAfter (invalidUserIdException value) = .ok reply) :
    a.IsErrorReply retryAfter reply :=
  .inl ⟨.invalidUserId, _, by decide, echoSafe_sanitize (extractRawUserId value),
    catch_invalidUserId retryAfter value ▸ h⟩

theorem isErrorReply_rejection {env : PerUserRateLimitEnv} {seconds : ℕ} {candidate : String}
    (hsafe : EchoSafe candidate)
    (h : a.catchException retryAfter (reject env seconds candidate).thrown = .ok reply) :
    a.IsErrorReply retryAfter reply :=
  .inl ⟨.rateLimited, candidate, by decide, hsafe, catch_rejection env retryAfter seconds _ ▸ h⟩

/-- A body that could not be parsed is that of an invalid user id, unless the filter does not know
how it failed. -/
theorem catch_parse {e : ParseFailure} (h : a.catchException retryAfter e.thrown = .ok reply) :
    (isBodyParseFailure e.thrown = true ∧ a.respond retryAfter 422 .invalidUserId "" = .ok reply) ∨
    (isBodyParseFailure e.thrown = false ∧
      ∃ status, 400 ≤ status ∧ a.sendApiError retryAfter status .internal = .ok reply) := by
  unfold catchException at h
  cases hparse : isBodyParseFailure e.thrown with
  | true =>
    rw [hparse, if_pos rfl] at h
    exact .inl ⟨rfl, h⟩
  | false =>
    rw [hparse, if_neg (by decide)] at h
    refine .inr ⟨rfl, ?_⟩
    cases e with
    | syntaxError => cases hparse
    | raw code => exact ⟨500, by decide, h⟩
    | wrapped status message =>
      refine ⟨if 400 ≤ status ∧ status < 600 then status else 500, ?_, h⟩
      split_ifs <;> omega

/-- The limiter's own envelope is what the filter would send. -/
theorem catch_limited
    (h : a.catchException retryAfter a.buildRateLimitedThrowable = .ok reply) :
    a.respond retryAfter 429 .rateLimited "" = .ok reply := by
  unfold buildRateLimitedThrowable errorEnvelope buildApiErrorResponse at h
  unfold respond sendApiError errorEnvelope buildApiErrorResponse
  cases htime : isoTime a.serverTimeMs with
  | error e =>
    -- the filter meets the same clock
    have hfail : a.catchException retryAfter (.other none) = .error e := by
      show a.sendApiError retryAfter 500 .internal = _
      unfold sendApiError buildApiErrorResponse
      rw [htime]
      rfl
    rw [htime] at h
    have hthrown : a.catchException retryAfter (.other none) = .ok reply := by
      split_ifs at h
      · exact h
      · exact h
    rw [hfail] at hthrown
    cases hthrown
  | ok serverTime =>
    rw [htime] at h
    split_ifs at h ⊢ with hpath
    · simpa [Except.map, bind, Except.bind, pure, Except.pure, Body.json, Body.jsonFields, Body.int,
        catchException, isBodyParseFailure, Thrown.code, JsValue.get, JsValue.asString,
        rateLimitedEnvelope, JsValue.body, JsValue.bodyFields, AttemptOutcome.text] using h
    · simpa [Except.map, bind, Except.bind, pure, Except.pure, Body.json, Body.jsonFields, Body.int,
        catchException, isBodyParseFailure, Thrown.code, JsValue.get, JsValue.asString,
        rateLimitedEnvelope, JsValue.body, JsValue.bodyFields, AttemptOutcome.text,
        ApiErrorCode.text] using h

theorem isErrorReply_limited
    (h : a.catchException retryAfter a.buildRateLimitedThrowable = .ok reply) :
    a.IsErrorReply retryAfter reply :=
  .inl ⟨.rateLimited, "", by decide, echoSafe_empty, catch_limited h⟩

end Arrival

/-! ## Every reply -/

/-- A request to a route, with what it meets there. -/
inductive RouteCall where
  | saleStatus (failure : Option Failure) (t : RedisTime)
  | metrics (raw : Except Failure (String → Option ℕ)) (nowMs : ℤ)
  | purchase (call : PostPurchaseCall)
  | purchaseStatus (call : StatusCall)
  | health (uptimeSeconds : ℚ)
  | readiness (probe : ReadinessProbe)

/-- The handler of a route. -/
def RouteCall.handle (env : PerUserRateLimitEnv) (requestId : String) (s : Sale) :
    RouteCall → Except (Thrown × Option String) HttpReply
  | .saleStatus failure t => getSaleStatusRoute env.SALE_ID s failure t
  | .metrics raw nowMs => getMetricsRoute env.SALE_ID raw nowMs
  | .purchase call => postPurchase env s call
  | .purchaseStatus call => getPurchaseStatusRoute env.SALE_ID requestId call
  | .health uptimeSeconds => .ok (getHealthRoute uptimeSeconds)
  | .readiness probe => getReadinessRoute probe

variable {env : PerUserRateLimitEnv} {s : Sale} {a : Arrival} {reply : HttpReply}
  {exception : Thrown} {header : Option String}

theorem canActivate_rejects {keys : LimiterKeys} {now : ℕ} {request : GuardedRequest}
    {rejection : RateLimitRejection} (h : (canActivate env keys now request).1 = .error rejection) :
    ∃ candidate seconds, extractRateLimitCandidateUserId request.body = some candidate ∧
      rejection = reject env seconds candidate := by
  unfold canActivate at h
  split at h
  · cases h
  next candidate hcandidate =>
    dsimp only at h
    split at h
    · cases h
    · split_ifs at h
      obtain rfl := Except.error.inj h
      exact ⟨candidate, _, hcandidate, rfl⟩

theorem isErrorReply_postPurchase {p : PostPurchaseCall}
    (hthrow : postPurchase env s p = .error (exception, header))
    (h : a.catchException header exception = .ok reply) : a.IsErrorReply header reply := by
  unfold postPurchase at hthrow
  split at hthrow
  · obtain ⟨rfl, rfl⟩ := Prod.mk.inj (Except.error.inj hthrow)
    exact Arrival.isErrorReply_parse h
  · split at hthrow
    next rejection hrejection =>
      obtain ⟨rfl, rfl⟩ := Prod.mk.inj (Except.error.inj hthrow)
      obtain ⟨candidate, seconds, hcandidate, rfl⟩ := canActivate_rejects hrejection
      exact Arrival.isErrorReply_rejection (echoSafe_of_extract hcandidate) h
    · split at hthrow
      · obtain ⟨rfl, rfl⟩ := Prod.mk.inj (Except.error.inj hthrow)
        exact Arrival.isErrorReply_invalidUserId h
      · dsimp only at hthrow
        split at hthrow
        · obtain ⟨rfl, rfl⟩ := Prod.mk.inj (Except.error.inj hthrow)
          exact Arrival.isErrorReply_failure h
        · cases hthrow

theorem isErrorReply_handle {call : RouteCall} {requestId : String}
    (hthrow : call.handle env requestId s = .error (exception, header))
    (h : a.catchException header exception = .ok reply) : a.IsErrorReply header reply := by
  cases call with
  | saleStatus failure t =>
    simp only [RouteCall.handle, getSaleStatusRoute] at hthrow
    split at hthrow
    · cases hthrow
    · obtain ⟨rfl, rfl⟩ := Prod.mk.inj (Except.error.inj hthrow)
      exact Arrival.isErrorReply_failure h
  | metrics raw nowMs =>
    simp only [RouteCall.handle, getMetricsRoute] at hthrow
    split at hthrow
    · cases hthrow
    · obtain ⟨rfl, rfl⟩ := Prod.mk.inj (Except.error.inj hthrow)
      exact Arrival.isErrorReply_failure h
  | purchase call => exact isErrorReply_postPurchase hthrow h
  | purchaseStatus call =>
    simp only [RouteCall.handle, getPurchaseStatusRoute] at hthrow
    split at hthrow
    · obtain ⟨rfl, rfl⟩ := Prod.mk.inj (Except.error.inj hthrow)
      exact Arrival.isErrorReply_invalidUserId h
    · split at hthrow
      · cases hthrow
      · obtain ⟨rfl, rfl⟩ := Prod.mk.inj (Except.error.inj hthrow)
        exact Arrival.isErrorReply_failure h
  | health uptimeSeconds => cases hthrow
  | readiness probe =>
    simp only [RouteCall.handle, getReadinessRoute] at hthrow
    split at hthrow
    · cases hthrow
    · obtain ⟨rfl, rfl⟩ := Prod.mk.inj (Except.error.inj hthrow)
      exact Arrival.isErrorReply_failure h

/-- Whatever a request meets, the reply is its handler's own, or one of the filter: a fixed outcome
with its status and message that echoes at most 64 characters of user ids, or `INTERNAL`. -/
theorem reply_cases {call : RouteCall} {limited : Option (Option String)}
    (h : a.answer limited (call.handle env a.requestId s) = .ok reply) :
    (limited = none ∧ call.handle env a.requestId s = .ok reply) ∨
      ((limited ≠ none ∨ ∃ thrown, call.handle env a.requestId s = .error thrown) ∧
        ∃ retryAfter, a.IsErrorReply retryAfter reply) := by
  unfold Arrival.answer at h
  cases limited with
  | some header => exact .inr ⟨.inl (by simp), header, Arrival.isErrorReply_limited h⟩
  | none =>
    cases hhandle : call.handle env a.requestId s with
    | ok own =>
      rw [hhandle] at h
      obtain rfl := Except.ok.inj h
      exact .inl ⟨rfl, rfl⟩
    | error thrown =>
      rw [hhandle] at h
      exact .inr ⟨.inr ⟨thrown, rfl⟩, thrown.2, isErrorReply_handle hhandle h⟩

/-- What the API means by its reply to a purchase: the refusal of a limiter, of the parser or of the
schema, or else the decision, if its time is a date. There is no outcome to an internal error. -/
def PostPurchaseCall.meant (env : PerUserRateLimitEnv) (s : Sale) (limited : Option (Option String))
    (p : PostPurchaseCall) : Option AttemptOutcome :=
  if limited.isSome then some .rateLimited
  else match p.parsed with
  | .error e => if isBodyParseFailure e.thrown then some .invalidUserId else none
  | .ok body =>
    match (canActivate env p.keys p.limiterNow ⟨body, p.ip⟩).1 with
    | .error _ => some .rateLimited
    | .ok () =>
      match purchaseRequestSchema body with
      | none => some .invalidUserId
      | some userId =>
        let decision := purchaseDecision p.guard (p.stored env.SALE_ID s userId) p.nowMs
        if (isoTime decision.serverTimeMs).isOk then some decision.outcome else none

/-- A reply to a purchase: the envelope of the decision, that of a refusal, or an internal error. -/
inductive PurchaseReply.Conveys (env : PerUserRateLimitEnv) (s : Sale) (p : PostPurchaseCall)
    (a : Arrival) (reply : HttpReply) : Option AttemptOutcome → Prop
  | decision (userId : String)
    (henvelope : buildPurchaseEnvelope
      (purchaseDecision p.guard (p.stored env.SALE_ID s userId) p.nowMs).outcome userId env.SALE_ID
      (purchaseDecision p.guard (p.stored env.SALE_ID s userId) p.nowMs).stockRemaining
      (purchaseDecision p.guard (p.stored env.SALE_ID s userId) p.nowMs).serverTimeMs =
        .ok reply.body)
    (hstatus : reply.status =
      (purchaseDecision p.guard (p.stored env.SALE_ID s userId) p.nowMs).outcome.httpStatus) :
    Conveys env s p a reply
      (some (purchaseDecision p.guard (p.stored env.SALE_ID s userId) p.nowMs).outcome)
  | refusal (outcome : AttemptOutcome) (retryAfter : Option String) (userId : String)
    (hne : outcome ≠ .confirmed)
    (hrespond : a.respond retryAfter outcome.httpStatus outcome userId = .ok reply) :
    Conveys env s p a reply (some outcome)
  | internal (retryAfter : Option String) (status : ℕ) (hge : 400 ≤ status)
    (hsend : a.sendApiError retryAfter status .internal = .ok reply) : Conveys env s p a reply none

/-- The handler answers by itself exactly with an envelope of the decision. -/
theorem conveys_of_ok {p : PostPurchaseCall} (h : postPurchase env s p = .ok reply) :
    PurchaseReply.Conveys env s p a reply (p.meant env s none) := by
  unfold PostPurchaseCall.meant
  rw [if_neg (by simp)]
  unfold postPurchase at h
  split at h
  · cases h
  next body hbody =>
    split at h
    · cases h
    next hguard =>
      split at h
      · cases h
      next userId hid =>
        dsimp only at h
        split at h
        · cases h
        next envelope henvelope =>
          obtain rfl := Except.ok.inj h
          obtain ⟨serverTime, htime, -⟩ := bind_eq_ok henvelope
          simp only [htime]
          exact .decision userId henvelope rfl

/-- The time of a decision whose envelope cannot be built is no date. -/
theorem buildPurchaseEnvelope_error {outcome : AttemptOutcome} {userId saleId : String}
    {stockRemaining : Option ℤ} {ms : ℤ} {e : Failure}
    (h : buildPurchaseEnvelope outcome userId saleId stockRemaining ms = .error e) :
    (isoTime ms).isOk = false ∧ e.thrown = .other none := by
  unfold buildPurchaseEnvelope isoTime at h
  unfold isoTime
  split_ifs at h ⊢
  · cases h
  · obtain rfl := Except.error.inj h
    exact ⟨rfl, rfl⟩

/-- What the filter makes of what the handler, the guard or the pipe throws. -/
theorem conveys_of_error {p : PostPurchaseCall}
    (hthrow : postPurchase env s p = .error (exception, header))
    (h : a.catchException header exception = .ok reply) :
    PurchaseReply.Conveys env s p a reply (p.meant env s none) := by
  unfold PostPurchaseCall.meant
  rw [if_neg (by simp)]
  unfold postPurchase at hthrow
  split at hthrow
  · obtain ⟨rfl, rfl⟩ := Prod.mk.inj (Except.error.inj hthrow)
    rcases Arrival.catch_parse h with ⟨hfailure, hrespond⟩ | ⟨hfailure, status, hge, hsend⟩
    · simp only [hfailure]
      exact .refusal _ none "" (by decide) hrespond
    · simp only [hfailure]
      exact .internal none status hge hsend
  · split at hthrow
    next rejection hrejection =>
      obtain ⟨rfl, rfl⟩ := Prod.mk.inj (Except.error.inj hthrow)
      obtain ⟨candidate, seconds, -, rfl⟩ := canActivate_rejects hrejection
      exact .refusal _ _ candidate (by decide) (Arrival.catch_rejection env _ seconds _ ▸ h)
    · split at hthrow
      · obtain ⟨rfl, rfl⟩ := Prod.mk.inj (Except.error.inj hthrow)
        exact .refusal _ none _ (by decide) (Arrival.catch_invalidUserId none _ ▸ h)
      · dsimp only at hthrow
        split at hthrow
        next e henvelope =>
          obtain ⟨rfl, rfl⟩ := Prod.mk.inj (Except.error.inj hthrow)
          obtain ⟨htime, hthrown⟩ := buildPurchaseEnvelope_error henvelope
          rw [hthrown] at h
          simp only [htime]
          exact .internal none 500 (by decide) h
        · cases hthrow

/-- The reply to a purchase conveys what the API means. -/
theorem conveys_answer {p : PostPurchaseCall} {limited : Option (Option String)}
    (h : a.answer limited (postPurchase env s p) = .ok reply) :
    PurchaseReply.Conveys env s p a reply (p.meant env s limited) := by
  unfold Arrival.answer at h
  cases limited with
  | some header => exact .refusal _ header "" (by decide) (Arrival.catch_limited h)
  | none =>
    cases hown : postPurchase env s p with
    | ok own =>
      rw [hown] at h
      obtain rfl := Except.ok.inj h
      exact conveys_of_ok hown
    | error thrown =>
      rw [hown] at h
      exact conveys_of_error hown h

/-- A user id with foreign characters. -/
def foreignCall : PostPurchaseCall where
  parsed := .ok (.object [("userId", .string "<b>mia</b>")])
  ip := none
  keys := fun _ => none
  limiterNow := 0
  guard := none
  failure := none
  fresh := ""
  t := ⟨0, 0⟩
  nowMs := 0

/-- A request on the purchase route. -/
def purchaseArrival : Arrival := ⟨"flash-2026", "/api/purchase?x=1", "req-1", 0⟩

theorem reply_cases_foreign : ∃ reply,
    purchaseArrival.answer none
      ((RouteCall.purchase foreignCall).handle fivePerSecond "req-1" (saleAfter [])) = .ok reply ∧
    reply.status = 422 ∧ ∃ retryAfter, purchaseArrival.IsErrorReply retryAfter reply := by
  have h : ∃ reply, purchaseArrival.answer none
      ((RouteCall.purchase foreignCall).handle fivePerSecond "req-1" (saleAfter [])) = .ok reply ∧
        reply.status = 422 := ⟨_, rfl, rfl⟩
  obtain ⟨reply, hreply, hstatus⟩ := h
  rcases reply_cases hreply with ⟨-, hown⟩ | ⟨-, herror⟩
  · cases hown
  · exact ⟨reply, hreply, hstatus, herror⟩

end FlashSale
