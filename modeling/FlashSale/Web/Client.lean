import FlashSale.Api.ExceptionFilter
import FlashSale.Web.Decoders

/-!
# The client of the web app

`request` accepts a body the decoder of the route accepts, on a status of success or on any status for
a purchase, whose envelope carries the outcome. It fails with a kind otherwise: the network, the
deadline, an answer it cannot read, or an error of the API.
-/

namespace FlashSale

open Number JsValue

/-! ## The client -/

inductive ApiClientErrorKind where
  | network
  | timeout
  | invalidResponse
  | http
  deriving DecidableEq, Repr

structure ApiClientError where
  kind : ApiClientErrorKind
  message : String
  retryAfterSeconds : Option ℤ
  deriving DecidableEq, Repr

/-- `Timed<T>`: the decoded body and the readings of the clock around the request. -/
structure Timed where
  data : JsValue
  sentAtMs : ℤ
  receivedAtMs : ℤ
  retryAfterSeconds : Option ℤ

/-- What `fetch` and `response.json()` come to. -/
inductive Fetched where
  /-- `fetch` rejects, after the deadline of the request or before it. -/
  | rejected (timedOut : Bool)
  /-- A response; `none` is a body that is not JSON. -/
  | response (status : ℕ) (retryAfter : Option String) (body : Option JsValue)

def parseRetryAfter (value : Option String) : Option ℤ :=
  value.bind fun value =>
    if value.toList.isEmpty || !value.toList.all Char.isDigit then none
    else (ofText value.toList).safeInteger.map fun seconds => min 10 (max 0 seconds)

/-- `response.ok`. -/
def isOk (status : ℕ) : Bool := decide (200 ≤ status) && decide (status < 300)

section

variable (date : JsDate)

def decodeApiError (value : JsValue) : Option JsValue := do
  let fields ← value.fields?
  if !(get fields "error").isString || !(get fields "message").isString ||
      !(get fields "requestId").isString then none
  else if !(get fields "serverTime").isIso date || !(get fields "serverTimeMs").isInteger then none
  else some value

def decodeSaleMetrics (value : JsValue) : Option JsValue := do
  let fields ← value.fields?
  if !(get fields "saleId").isString then none
  else
    let metrics ← (get fields "metrics").fields?
    if !SALE_METRIC_FIELDS.all fun field => (get metrics field).isCount then none
    else if !(get fields "serverTime").isIso date || !(get fields "serverTimeMs").isInteger then none
    else some value

def ApiClientError.unreadable : ApiClientError :=
  ⟨.invalidResponse, "The server returned an unreadable response.", none⟩

def ApiClientError.unexpected : ApiClientError :=
  ⟨.invalidResponse, "The server returned an unexpected response.", none⟩

/-- The status field of decoded data is `CONFIRMED`. -/
def saysConfirmed (data : JsValue) : Bool :=
  match data.fields? with
  | some fields => (get fields "status").asString == some "CONFIRMED"
  | none => false

def ApiClient.request (decoder : JsValue → Option JsValue) (purchase : Bool)
    (sentAtMs receivedAtMs : ℤ) : Fetched → Except ApiClientError Timed
  | .rejected true => .error ⟨.timeout, "The request timed out.", none⟩
  | .rejected false => .error ⟨.network, "The service could not be reached.", none⟩
  | .response _ _ none => .error .unreadable
  | .response status retryAfter (some body) =>
    let retryAfterSeconds := parseRetryAfter retryAfter
    match decoder body with
    | some data =>
      if purchase && saysConfirmed data && status != AttemptOutcome.confirmed.httpStatus then
        .error .unexpected
      else if isOk status || purchase then .ok ⟨data, sentAtMs, receivedAtMs, retryAfterSeconds⟩
      else if !isOk status && (decodeApiError date body).isSome then
        .error ⟨.http, "The service is temporarily unavailable.", retryAfterSeconds⟩
      else .error .unexpected
    | none =>
      if !isOk status && (decodeApiError date body).isSome then
        .error ⟨.http, "The service is temporarily unavailable.", retryAfterSeconds⟩
      else .error .unexpected

end

/-- What the client receives of a reply. -/
def HttpReply.received (reply : HttpReply) : Fetched :=
  .response reply.status reply.retryAfter (some reply.body.json)

/-- The body of `purchase`. -/
def purchaseBody (userId : String) : JsValue := .object [("userId", .string (jsTrim userId))]

/-! ## Errors of the API -/

variable {date : JsDate} {a : Arrival} {retryAfter : Option String} {reply : HttpReply}
  {sentAtMs receivedAtMs : ℤ}

theorem decodeApiError_of_build {error : ApiErrorCode} {requestId : String} {ms : ℤ} {body : Body}
    (h : buildApiErrorResponse error requestId ms = .ok body) :
    decodeApiError date body.json = some body.json := by
  obtain ⟨serverTime, htime, h⟩ := bind_eq_ok h
  obtain rfl := Except.ok.inj h
  unfold decodeApiError
  simp [Body.json, Body.jsonFields, Body.int, JsValue.get, isoTime_ok htime]

/-- The seconds of a header that is a decimal number; one that is no safe integer is dropped. -/
theorem parseRetryAfter_toString (n : ℕ) :
    parseRetryAfter (some (toString n)) = if n < 2 ^ 53 then some (min 10 (n : ℤ)) else none := by
  have hl : (toString n).toList = Nat.toDigits 10 n := Nat.toList_repr
  have hdigits : (toString n).toList.all Char.isDigit = true := by
    rw [List.all_eq_true]
    intro c hc
    rw [hl] at hc
    exact Nat.isDigit_of_mem_toDigits (by decide) (by decide) hc
  have hne : (toString n).toList.isEmpty = false := by
    rw [hl]
    simp
  have htext : ofText (toString n).toList = ofRat n := by
    rw [ofText_digits (by rw [hl]; simp) (List.all_eq_true.1 hdigits), hl,
      Nat.ofDigitChars_ten_toDigits]
  unfold parseRetryAfter
  rw [Option.bind_some, hdigits, hne, htext, if_neg (by decide)]
  split_ifs with hn
  · have hsafe : (JsNumber.finite (n : ℚ)).safeInteger = some (n : ℤ) := by
      show (if (n : ℚ).den = 1 ∧ |(n : ℚ).num| < 2 ^ 53 then some (n : ℚ).num else none) = _
      rw [Rat.num_natCast, if_pos ⟨Rat.den_natCast n, by rw [Nat.abs_cast]; exact_mod_cast hn⟩]
    rw [ofRat_natCast hn, hsafe]
    simp
  · -- rounding does not make it safe
    have hsafe : (ofRat (n : ℚ)).safeInteger = none := by
      cases hr : ofRat (n : ℚ) with
      | finite r =>
        have hle : 2 ^ 53 ≤ r := le_of_ofRat (by exact_mod_cast not_lt.1 hn) hr
        show (if r.den = 1 ∧ |r.num| < 2 ^ 53 then some r.num else none) = none
        rw [if_neg]
        rintro ⟨hden, hnum⟩
        have heq : (r.num : ℚ) = r := Rat.coe_int_num_of_den_eq_one hden
        have hnum' : |(r.num : ℚ)| < 2 ^ 53 := by exact_mod_cast hnum
        rw [heq] at hnum'
        exact absurd (lt_of_abs_lt hnum') (not_lt.2 hle)
      | infinite b => rfl
      | nan => rfl
    rw [hsafe]
    rfl

/-- An error body on a status of failure is an error of the kind `http`. -/
theorem request_apiError {decoder : JsValue → Option JsValue} {purchase : Bool}
    {error : ApiErrorCode} {requestId : String} {ms : ℤ}
    (h : buildApiErrorResponse error requestId ms = .ok reply.body) (hok : isOk reply.status = false)
    (hdecoder : purchase = true → decoder reply.body.json = none) :
    ∃ e, ApiClient.request date decoder purchase sentAtMs receivedAtMs reply.received = .error e ∧
      e.kind = .http := by
  unfold ApiClient.request HttpReply.received
  simp only [hok, decodeApiError_of_build h]
  cases purchase with
  | true =>
    rw [hdecoder rfl]
    exact ⟨_, rfl, rfl⟩
  | false =>
    cases decoder reply.body.json with
    | none => exact ⟨_, rfl, rfl⟩
    | some data => exact ⟨_, rfl, rfl⟩

/-- The status field of a body, as a client reads it. -/
def Says (outcome : AttemptOutcome) (body : Body) : Prop :=
  ∃ fields, body.json = .object fields ∧ get fields "status" = .string outcome.text

theorem Says.unique {outcome outcome' : AttemptOutcome} {body : Body} (h : Says outcome body)
    (h' : Says outcome' body) : outcome = outcome' := by
  obtain ⟨fields, hjson, hget⟩ := h
  obtain ⟨fields', hjson', hget'⟩ := h'
  rw [hjson] at hjson'
  injection hjson' with hfields
  subst hfields
  rw [hget] at hget'
  injection hget' with htext
  exact AttemptOutcome.text_injective htext

theorem says_envelope {outcome : AttemptOutcome} {userId saleId : String}
    {stockRemaining : Option ℤ} {ms : ℤ} {body : Body}
    (h : buildPurchaseEnvelope outcome userId saleId stockRemaining ms = .ok body) :
    Says outcome body := by
  obtain ⟨serverTime, -, h⟩ := bind_eq_ok h
  obtain rfl := Except.ok.inj h
  exact ⟨_, by rw [Body.json], by simp [Body.jsonFields, Body.json, JsValue.get]⟩

theorem says_errorEnvelope {outcome : AttemptOutcome} {userId saleId : String} {ms : ℤ} {body : Body}
    (h : errorEnvelope outcome userId saleId ms = .ok body) : Says outcome body := by
  obtain ⟨serverTime, -, h⟩ := bind_eq_ok h
  obtain rfl := Except.ok.inj h
  exact ⟨_, by rw [Body.json], by simp [Body.jsonFields, Body.json, JsValue.get]⟩

theorem Says.saysConfirmed {outcome : AttemptOutcome} {body : Body} (h : Says outcome body) :
    saysConfirmed body.json = true ↔ outcome = .confirmed := by
  obtain ⟨fields, hjson, hget⟩ := h
  rw [hjson]
  show (get fields "status").asString == some AttemptOutcome.confirmed.text ↔ _
  rw [hget]
  show (some outcome.text == some AttemptOutcome.confirmed.text) = true ↔ _
  rw [beq_iff_eq, Option.some.injEq]
  exact ⟨AttemptOutcome.text_injective, fun h => by rw [h]⟩

theorem decodePurchase_some {value data : JsValue} (h : decodePurchase date value = some data) :
    data = value := by
  unfold decodePurchase at h
  cases hf : value.fields? with
  | none => simp [hf] at h
  | some fields =>
    simp only [hf, Option.bind_eq_bind, Option.bind_some] at h
    split_ifs at h
    exact (Option.some.inj h).symm

/-- An envelope on the status of its outcome is what the client resolves to. -/
theorem request_envelope {outcome : AttemptOutcome}
    (hagrees : Agrees (decodePurchase date) reply.body) (hsaid : Says outcome reply.body)
    (hstatus : outcome = .confirmed → reply.status = 201) :
    ApiClient.request date (decodePurchase date) true sentAtMs receivedAtMs reply.received =
      .ok ⟨reply.body.json, sentAtMs, receivedAtMs, parseRetryAfter reply.retryAfter⟩ := by
  obtain ⟨value, hvalue, -⟩ := hagrees
  obtain rfl := decodePurchase_some hvalue
  unfold ApiClient.request HttpReply.received
  simp only [hvalue]
  rw [if_neg, if_pos (by simp)]
  intro hbad
  simp only [Bool.and_eq_true, bne_iff_ne, ne_eq] at hbad
  exact hbad.2 (hstatus (hsaid.saysConfirmed.1 hbad.1.2))

theorem isOk_of_failure {status : ℕ} (h : 400 ≤ status) : isOk status = false := by
  unfold isOk
  simp only [Bool.and_eq_false_iff, decide_eq_false_iff_not]
  omega

theorem httpStatus_failure {outcome : AttemptOutcome} (h : outcome ≠ .confirmed) :
    400 ≤ outcome.httpStatus ∧ outcome.httpStatus < 600 := by
  cases outcome with
  | confirmed => exact absurd rfl h
  | _ => decide

/-- `decodePurchase` refuses an error body. -/
theorem decodePurchase_apiError {error : ApiErrorCode} {requestId : String} {ms : ℤ} {body : Body}
    (h : buildApiErrorResponse error requestId ms = .ok body) :
    decodePurchase date body.json = none := by
  obtain ⟨serverTime, -, h⟩ := bind_eq_ok h
  obtain rfl := Except.ok.inj h
  unfold decodePurchase
  simp [Body.json, Body.jsonFields, Body.int, JsValue.get, JsValue.isMember]

theorem sendApiError_ok {status : ℕ} {error : ApiErrorCode}
    (h : a.sendApiError retryAfter status error = .ok reply) :
    reply.status = status ∧ reply.retryAfter = retryAfter ∧
      buildApiErrorResponse error a.requestId a.serverTimeMs = .ok reply.body := by
  obtain ⟨body, hbody, h⟩ := bind_eq_ok h
  obtain rfl := Except.ok.inj h
  exact ⟨rfl, rfl, hbody⟩

/-! ## A purchase -/

/-- The request reaches the store, which confirms the purchase at a time that is a date. -/
def PostPurchaseCall.Confirms (env : PerUserRateLimitEnv) (s : Sale) (p : PostPurchaseCall) : Prop :=
  ∃ body userId result serverTime, p.parsed = .ok body ∧
    (canActivate env p.keys p.limiterNow ⟨body, p.ip⟩).1 = .ok () ∧
    purchaseRequestSchema body = some userId ∧ p.guard = none ∧
    p.stored env.SALE_ID s userId = .ok result ∧ result.outcome = .confirmed ∧
    isoTime result.serverTimeMs = .ok serverTime

theorem purchaseDecision_confirmed {guard : Option (GuardOutcome × ℤ)}
    {stored : Except Failure PurchaseResult} {nowMs : ℤ} :
    (purchaseDecision guard stored nowMs).outcome = .confirmed ↔
      guard = none ∧ ∃ result, stored = .ok result ∧ result.outcome = .confirmed := by
  unfold purchaseDecision
  cases guard with
  | some g => obtain ⟨_ | _, n⟩ := g <;> simp [GuardOutcome.attempt]
  | none =>
    cases stored with
    | error e => simp
    | ok result =>
      obtain ⟨outcome, n, t, r⟩ := result
      cases outcome <;> simp [PurchaseOutcome.attempt]

/-- The API means `CONFIRMED` exactly when the store confirmed this request. -/
theorem meant_confirmed {env : PerUserRateLimitEnv} {limited : Option (Option String)}
    {p : PostPurchaseCall} {s : Sale} :
    p.meant env s limited = some .confirmed ↔ limited = none ∧ p.Confirms env s := by
  unfold PostPurchaseCall.meant
  constructor
  · intro h
    split_ifs at h with hlimited
    · cases h
    refine ⟨by simpa using hlimited, ?_⟩
    split at h
    · split_ifs at h
      cases h
    next body hbody =>
      split at h
      · cases h
      next hguard =>
        split at h
        · cases h
        next userId hid =>
          dsimp only at h
          split_ifs at h with htime
          obtain ⟨hg, result, hresult, hconfirmed⟩ :=
            purchaseDecision_confirmed.1 (Option.some.inj h)
          rw [hg, hresult] at htime
          cases hserverTime : isoTime result.serverTimeMs with
          | error e =>
            simp only [purchaseDecision, hserverTime] at htime
            cases htime
          | ok serverTime =>
            exact ⟨body, userId, result, serverTime, hbody, hguard, hid, hg, hresult, hconfirmed,
              hserverTime⟩
  · rintro ⟨rfl, body, userId, result, serverTime, hbody, hguard, hid, hg, hresult, hconfirmed,
      htime⟩
    have hdecision := (@purchaseDecision_confirmed p.guard (p.stored env.SALE_ID s userId)
      p.nowMs).2 ⟨hg, result, hresult, hconfirmed⟩
    have hms : (purchaseDecision p.guard (p.stored env.SALE_ID s userId) p.nowMs).serverTimeMs =
        result.serverTimeMs := by
      rw [hg, hresult]
      rfl
    simp only [hbody, hguard, hid, hms, htime, hdecision]
    rfl

theorem Says.iff_eq {outcome o : AttemptOutcome} {body : Body} (h : Says outcome body) :
    Says o body ↔ o = outcome :=
  ⟨fun ho => ho.unique h, fun ho => ho ▸ h⟩

/-- Whatever a purchase meets, the client resolves to the envelope with the outcome the API means, on
its status, or fails with the kind `http` when there is none; an answer is never one it cannot read.
The outcome is `CONFIRMED` exactly when the store confirmed this request. -/
theorem client_purchase {env : PerUserRateLimitEnv} {limited : Option (Option String)}
    {p : PostPurchaseCall} {s : Sale} (hpath : requestPath a.url = PURCHASE_ROUTE_PATH)
    (h : a.answer limited (postPurchase env s p) = .ok reply) :
    (∀ outcome, p.meant env s limited = some outcome →
      (∀ o, Says o reply.body ↔ o = outcome) ∧ reply.status = outcome.httpStatus ∧
      ApiClient.request date (decodePurchase date) true sentAtMs receivedAtMs reply.received =
        .ok ⟨reply.body.json, sentAtMs, receivedAtMs, parseRetryAfter reply.retryAfter⟩) ∧
    (p.meant env s limited = none →
      ∃ e, ApiClient.request date (decodePurchase date) true sentAtMs receivedAtMs reply.received =
        .error e ∧ e.kind = .http) ∧
    (p.meant env s limited = some .confirmed ↔ limited = none ∧ p.Confirms env s) := by
  have hconveys := conveys_answer h
  refine ⟨fun outcome hmeant => ?_, fun hmeant => ?_, meant_confirmed⟩
  · rw [hmeant] at hconveys
    generalize hsome : some outcome = meant at hconveys
    cases hconveys with
    | decision userId henvelope hstatus =>
      obtain rfl := Option.some.inj hsome
      have hstock : ∀ n, (purchaseDecision p.guard (p.stored env.SALE_ID s userId)
          p.nowMs).stockRemaining = some n → 0 ≤ n := by
        intro n hn
        refine purchaseDecision_stock env.SALE_ID s userId p.fresh p.t (fun result hresult => ?_)
          p.nowMs hn
        unfold PostPurchaseCall.stored at hresult
        cases hf : p.failure with
        | some e =>
          rw [hf] at hresult
          cases hresult
        | none =>
          rw [hf] at hresult
          exact hresult
      refine ⟨fun o => (says_envelope henvelope).iff_eq, hstatus, ?_⟩
      refine request_envelope (agrees_envelope hstock henvelope) (says_envelope henvelope)
        fun hc => ?_
      rw [hstatus, hc]
      rfl
    | refusal outcome retryAfter userId hne hrespond =>
      obtain rfl := Option.some.inj hsome
      unfold Arrival.respond at hrespond
      rw [if_pos hpath] at hrespond
      obtain ⟨body, hbody, hreply⟩ := bind_eq_ok hrespond
      obtain rfl := Except.ok.inj hreply
      exact ⟨fun o => (says_errorEnvelope hbody).iff_eq, rfl,
        request_envelope (agrees_errorEnvelope hbody) (says_errorEnvelope hbody)
          fun hc => absurd hc hne⟩
    | internal retryAfter status hge hsend => cases hsome
  · rw [hmeant] at hconveys
    cases hconveys with
    | internal retryAfter status hge hsend =>
      obtain ⟨hstatus, -, hbody⟩ := sendApiError_ok hsend
      exact request_apiError hbody (by rw [hstatus]; exact isOk_of_failure hge)
        fun _ => decodePurchase_apiError hbody

/-- A call of Alice that finds the store in reach. -/
def aliceCall : PostPurchaseCall where
  parsed := .ok (purchaseBody " alice ")
  ip := none
  keys := fun _ => none
  limiterNow := 0
  guard := none
  failure := none
  fresh := "11111111-1111-4111-8111-111111111111"
  t := ⟨1, 501000⟩
  nowMs := 1501

theorem client_purchase_alice : ∃ reply,
    purchaseArrival.answer none (postPurchase fivePerSecond (saleAfter [auroraSeed]) aliceCall) =
      .ok reply ∧
    Says .confirmed reply.body ∧ reply.status = 201 ∧
    ApiClient.request isoDate (decodePurchase isoDate) true 1500 1502 reply.received =
      .ok ⟨reply.body.json, 1500, 1502, parseRetryAfter reply.retryAfter⟩ := by
  have h : ∃ reply, purchaseArrival.answer none
      (postPurchase fivePerSecond (saleAfter [auroraSeed]) aliceCall) = .ok reply := ⟨_, rfl⟩
  obtain ⟨reply, hreply⟩ := h
  obtain ⟨hsaid, hstatus, hrequest⟩ := (client_purchase rfl hreply).1 .confirmed rfl
  exact ⟨reply, hreply, (hsaid _).2 rfl, hstatus, hrequest⟩

/-- A refusal of the limiter per user reaches the form as `RATE_LIMITED`, with the seconds that are
left of the window, ten at most. -/
theorem client_rateLimited {env : PerUserRateLimitEnv} {p : PostPurchaseCall} {s : Sale}
    {body : JsValue} {rejection : RateLimitRejection}
    (hpath : requestPath a.url = PURCHASE_ROUTE_PATH) (hparsed : p.parsed = .ok body)
    (hrefused : (canActivate env p.keys p.limiterNow ⟨body, p.ip⟩).1 = .error rejection)
    (h : a.answer none (postPurchase env s p) = .ok reply) :
    ∃ candidate count ttlMs, extractRateLimitCandidateUserId body = some candidate ∧
      (incrementAndBound p.keys (buildUserRateLimitKey env.SALE_ID p.ip candidate)
        env.RATE_LIMIT_USER_WINDOW_MS p.limiterNow).1 = .ok (count, ttlMs) ∧
      env.RATE_LIMIT_USER_MAX < count ∧ reply.status = 429 ∧ Says .rateLimited reply.body ∧
      ApiClient.request date (decodePurchase date) true sentAtMs receivedAtMs reply.received =
        .ok ⟨reply.body.json, sentAtMs, receivedAtMs,
          if retryAfterSeconds ttlMs < 2 ^ 53 then some (min 10 (retryAfterSeconds ttlMs : ℤ))
          else none⟩ := by
  have hcanActivate := hrefused
  unfold canActivate at hrefused
  split at hrefused
  · cases hrefused
  next candidate hcandidate =>
    dsimp only at hrefused
    split at hrefused
    · cases hrefused
    next count ttlMs keys hbound =>
      split_ifs at hrefused with hmax
      obtain rfl := Except.error.inj hrefused
      have hanswer :
          a.respond (some (toString (retryAfterSeconds ttlMs))) 429 .rateLimited candidate =
            .ok reply := by
        unfold postPurchase at h
        simp only [hparsed, hcanActivate] at h
        rw [← h]
        rfl
      unfold Arrival.respond at hanswer
      rw [if_pos hpath] at hanswer
      obtain ⟨envelope, henvelope, hreply⟩ := bind_eq_ok hanswer
      obtain rfl := Except.ok.inj hreply
      refine ⟨candidate, count, ttlMs, hcandidate, by rw [hbound], by omega, rfl,
        says_errorEnvelope henvelope, ?_⟩
      rw [request_envelope (agrees_errorEnvelope henvelope) (says_errorEnvelope henvelope)
        fun hc => by cases hc]
      rw [parseRetryAfter_toString]

/-- The sixth call of Alice within the second. -/
def limitedCall : PostPurchaseCall :=
  { aliceCall with
    keys := fun _ => some ⟨5, some 1000⟩
    limiterNow := 10 }

theorem client_rateLimited_alice : ∃ reply,
    purchaseArrival.answer none (postPurchase fivePerSecond (saleAfter [auroraSeed]) limitedCall) =
      .ok reply ∧
    ∃ candidate count ttlMs,
      extractRateLimitCandidateUserId (purchaseBody " alice ") = some candidate ∧
      (incrementAndBound limitedCall.keys
        (buildUserRateLimitKey fivePerSecond.SALE_ID none candidate)
        fivePerSecond.RATE_LIMIT_USER_WINDOW_MS 10).1 = .ok (count, ttlMs) ∧
      fivePerSecond.RATE_LIMIT_USER_MAX < count ∧ reply.status = 429 ∧
      Says .rateLimited reply.body ∧
      ApiClient.request isoDate (decodePurchase isoDate) true 10 11 reply.received =
        .ok ⟨reply.body.json, 10, 11,
          if retryAfterSeconds ttlMs < 2 ^ 53 then some (min 10 (retryAfterSeconds ttlMs : ℤ))
          else none⟩ := by
  have hrefused : (canActivate fivePerSecond limitedCall.keys limitedCall.limiterNow
      ⟨purchaseBody " alice ", limitedCall.ip⟩).1 = .error (reject fivePerSecond 1 "alice") := rfl
  have h : ∃ reply, purchaseArrival.answer none
      (postPurchase fivePerSecond (saleAfter [auroraSeed]) limitedCall) = .ok reply := ⟨_, rfl⟩
  obtain ⟨reply, hreply⟩ := h
  exact ⟨reply, hreply, client_rateLimited rfl rfl hrefused hreply⟩

/-! ## The other routes -/

/-- The decoder the client applies on a route, if it asks for it. -/
def RouteCall.decode (date : JsDate) : RouteCall → Option (JsValue → Option JsValue)
  | .saleStatus .. => some (decodeSaleStatus date)
  | .metrics .. => some (decodeSaleMetrics date)
  | .purchase _ => some (decodePurchase date)
  | .purchaseStatus _ => some (decodePurchaseStatus date)
  | .health _ => none
  | .readiness _ => some (decodeReadiness date)

theorem get_jsonFields (key : String) {fields : List (String × Body)}
    (h : ∀ f ∈ fields, f.1 ≠ key) : get (Body.jsonFields fields) key = .undefined := by
  induction fields with
  | nil => rfl
  | cons field fields ih =>
    obtain ⟨name, value⟩ := field
    have hrest := ih fun f hf => h f (List.mem_cons_of_mem _ hf)
    cases hv : value with
    | undefined => exact hrest
    | null | bool _ | number _ | string _ | array _ | object _ =>
      have hname : (name == key) = false := beq_false_of_ne (h _ List.mem_cons_self)
      simp only [Body.jsonFields, JsValue.get, List.find?_cons, hname]
      exact hrest

theorem agrees_metrics {saleId : String} {raw : String → Option ℕ} {nowMs : ℤ} {body : Body}
    (h : getMetrics saleId raw nowMs = .ok body) : Agrees (decodeSaleMetrics date) body := by
  obtain ⟨-, -, h⟩ := bind_eq_ok h
  obtain ⟨serverTime, htime, h⟩ := bind_eq_ok h
  obtain rfl := Except.ok.inj h
  unfold decodeSaleMetrics
  refine Agrees.intro ?_ ?_
  · simp [Body.json, Body.jsonFields, Body.int, JsValue.get, isoTime_ok htime, SALE_METRIC_FIELDS]
  · simp [Body.json, Body.jsonFields, Body.int, JsValue.body, JsValue.bodyFields, SALE_METRIC_FIELDS]

/-- A body without an `error` is no error body. -/
theorem decodeApiError_readiness (date : JsDate) {p : ReadinessProbe} {body : Body}
    (h : p.getReadiness = .ok body) : decodeApiError date body.json = none := by
  obtain ⟨serverTime, -, h⟩ := bind_eq_ok h
  obtain rfl := Except.ok.inj h
  unfold decodeApiError
  rw [Body.json, JsValue.fields?_object]
  simp only [Option.bind_eq_bind, Option.bind_some]
  rw [get_jsonFields "error" (by simp)]
  rfl

/-- A body of success on the status 200. -/
theorem request_ok {decoder : JsValue → Option JsValue} (hagrees : Agrees decoder reply.body)
    (hstatus : reply.status = 200) :
    ∃ timed, ApiClient.request date decoder false sentAtMs receivedAtMs reply.received = .ok timed ∧
      timed.data.body = reply.body := by
  obtain ⟨value, hvalue, hbody⟩ := hagrees
  unfold ApiClient.request HttpReply.received
  simp only [hvalue, hstatus]
  exact ⟨_, rfl, hbody⟩

/-- The decoder refuses the `null` an infinite age has become, and a negative latency. -/
theorem clear_of_decodeReadiness {p : ReadinessProbe} {body : Body} {value : JsValue}
    (h : p.getReadiness = .ok body) (hvalue : decodeReadiness date body.json = some value) :
    p.Clear := by
  obtain ⟨serverTime, htime, h⟩ := bind_eq_ok h
  obtain rfl := Except.ok.inj h
  obtain ⟨redisOk, redisMs, hredis, hredisMs, -⟩ := latencyCheck_json p.redis
  obtain ⟨postgresOk, postgresMs, hpostgres, hpostgresMs, -⟩ := latencyCheck_json p.postgres
  obtain ⟨clockOk, offsetMs, rttMs, ageMs, hclock, hage, -⟩ := checkClock_json p
  obtain ⟨saleOk, initialized, stockKeyPresent, hsale, -⟩ := checkSale_json p
  obtain ⟨queueOk, waiting, active, delayed, failed, hqueue, -⟩ := checkQueue_json p
  have huptime : ¬p.uptimeSeconds < 0 := not_lt.mpr p.uptime_nonneg
  unfold decodeReadiness at hvalue
  have hchecks : redisMs.isLatency = true ∧ postgresMs.isLatency = true ∧ ageMs.isFinite = true := by
    simp [Body.json, Body.int, Body.jsonFields_cons, Body.jsonFields, hredis, hpostgres, hclock,
      hsale, hqueue, JsValue.get, isoTime_ok htime, huptime] at hvalue
    exact ⟨hvalue.1, hvalue.2.1, hvalue.2.2.1⟩
  exact ⟨hage.1 hchecks.2.2, hredisMs.1 hchecks.1, hpostgresMs.1 hchecks.2.1⟩

/-- A readiness answer: the client reads it exactly when the pod is healthy and the call is clear. -/
theorem request_readiness (date : JsDate) {probe : ReadinessProbe}
    (hbody : probe.getReadiness = .ok reply.body)
    (hstatus : reply.status = if probe.healthy then 200 else 503) :
    (probe.healthy = true ∧ probe.Clear ∧
      ∃ timed, ApiClient.request date (decodeReadiness date) false sentAtMs receivedAtMs
        reply.received = .ok timed ∧ timed.data.body = reply.body) ∨
    ((probe.healthy = false ∨ ¬probe.Clear) ∧
      ApiClient.request date (decodeReadiness date) false sentAtMs receivedAtMs reply.received =
        .error .unexpected) := by
  have herror := decodeApiError_readiness date hbody
  cases hhealthy : probe.healthy with
  | true =>
    rw [hhealthy, if_pos rfl] at hstatus
    by_cases hclear : probe.Clear
    · exact .inl ⟨rfl, hclear, request_ok ((agrees_readiness hbody).2 hclear) hstatus⟩
    · refine .inr ⟨.inr hclear, ?_⟩
      have hnone : decodeReadiness date reply.body.json = none := by
        cases hvalue : decodeReadiness date reply.body.json with
        | none => rfl
        | some value => exact absurd (clear_of_decodeReadiness hbody hvalue) hclear
      unfold ApiClient.request HttpReply.received
      simp only [hnone, hstatus, herror]
      rfl
  | false =>
    refine .inr ⟨.inl rfl, ?_⟩
    rw [hhealthy] at hstatus
    unfold ApiClient.request HttpReply.received
    simp only [herror, hstatus]
    cases decodeReadiness date reply.body.json with
    | none => rfl
    | some value => rfl

/-- What the client makes of a reply of the filter on another route. -/
theorem request_errorReply_get {decoder : JsValue → Option JsValue}
    (hpath : requestPath a.url ≠ PURCHASE_ROUTE_PATH) (h : a.IsErrorReply retryAfter reply) :
    400 ≤ reply.status ∧
    ∃ e, ApiClient.request date decoder false sentAtMs receivedAtMs reply.received = .error e ∧
      e.kind = .http := by
  obtain ⟨status, error, hge, hsend⟩ : ∃ status error, 400 ≤ status ∧
      a.sendApiError retryAfter status error = .ok reply := by
    rcases h with ⟨outcome, userId, hne, -, hrespond⟩ | ⟨status, hge, -, hsend⟩
    · unfold Arrival.respond at hrespond
      rw [if_neg hpath] at hrespond
      exact ⟨_, _, (httpStatus_failure hne).1, hrespond⟩
    · exact ⟨status, _, hge, hsend⟩
  obtain ⟨hstatus, -, hbody⟩ := sendApiError_ok hsend
  exact ⟨hstatus ▸ hge, request_apiError hbody (by rw [hstatus]; exact isOk_of_failure hge)
    fun hpurchase => by cases hpurchase⟩

/-- The client reads every body of success and takes every other answer for an error of the API. The
exception is readiness: an answer that is not clear, or of a pod that is not healthy, whose body is no
error body, is one it cannot read. So it never shows a pod as degraded. -/
theorem client_get {calls : List ScriptCall} (hcalls : ∀ c ∈ calls, c.Issued date)
    {env : PerUserRateLimitEnv} {limited : Option (Option String)} {call : RouteCall}
    {decoder : JsValue → Option JsValue} (hdecoder : call.decode date = some decoder)
    (hcall : ∀ p, call ≠ .purchase p) (hpath : requestPath a.url ≠ PURCHASE_ROUTE_PATH)
    (h : a.answer limited (call.handle env a.requestId (saleAfter calls)) = .ok reply) :
    (reply.status = 200 ∧ (∀ probe, call = .readiness probe → probe.healthy = true ∧ probe.Clear) ∧
      ∃ timed, ApiClient.request date decoder false sentAtMs receivedAtMs reply.received =
        .ok timed ∧ timed.data.body = reply.body) ∨
    (400 ≤ reply.status ∧
      ∃ e, ApiClient.request date decoder false sentAtMs receivedAtMs reply.received =
        .error e ∧ e.kind = .http) ∨
    ∃ probe, call = .readiness probe ∧ (probe.healthy = false ∨ ¬probe.Clear) ∧
      ApiClient.request date decoder false sentAtMs receivedAtMs reply.received =
        .error .unexpected := by
  rcases reply_cases h with ⟨-, hown⟩ | ⟨-, retryAfter, herror⟩
  · cases call with
    | health uptimeSeconds => cases hdecoder
    | saleStatus failure t =>
      obtain rfl := Option.some.inj hdecoder
      simp only [RouteCall.handle, getSaleStatusRoute] at hown
      split at hown
      next body hbody =>
        obtain rfl := Except.ok.inj hown
        refine .inl ⟨rfl, fun _ hp => (by cases hp), request_ok ?_ rfl⟩
        cases failure with
        | some e => cases hbody
        | none => exact agrees_saleStatus hcalls hbody
      · cases hown
    | metrics raw nowMs =>
      obtain rfl := Option.some.inj hdecoder
      simp only [RouteCall.handle, getMetricsRoute] at hown
      split at hown
      next body hbody =>
        obtain rfl := Except.ok.inj hown
        obtain ⟨counters, -, hbody⟩ := bind_eq_ok hbody
        exact .inl ⟨rfl, fun _ hp => (by cases hp), request_ok (agrees_metrics hbody) rfl⟩
      · cases hown
    | purchase p => exact absurd rfl (hcall p)
    | purchaseStatus p =>
      obtain rfl := Option.some.inj hdecoder
      simp only [RouteCall.handle, getPurchaseStatusRoute] at hown
      split at hown
      · cases hown
      next userId hid =>
        split at hown
        next status body hanswered =>
          obtain rfl := Except.ok.inj hown
          split at hanswered
          next answer hanswer =>
            cases answer with
            | error e => cases hanswered
            | ok found =>
              obtain ⟨rfl, rfl⟩ := Prod.mk.inj (Except.ok.inj hanswered)
              exact .inl ⟨rfl, fun _ hp => (by cases hp),
                request_ok (agrees_purchaseStatus hanswer) rfl⟩
          · -- both stores out of reach
            cases hbuild : buildApiErrorResponse (.outcome .upstreamUnavailable) a.requestId
                p.nowMs with
            | error e =>
              rw [hbuild] at hanswered
              cases hanswered
            | ok found =>
              rw [hbuild] at hanswered
              obtain ⟨rfl, rfl⟩ := Prod.mk.inj (Except.ok.inj hanswered)
              exact .inr (.inl ⟨(by decide : 400 ≤ 503),
                request_apiError hbuild rfl fun hp => by cases hp⟩)
        · cases hown
    | readiness probe =>
      obtain rfl := Option.some.inj hdecoder
      simp only [RouteCall.handle, getReadinessRoute] at hown
      split at hown
      next body hbody =>
        have hsame : probe.getReadiness = .ok reply.body ∧
            reply.status = if probe.healthy then 200 else 503 := by
          obtain rfl := Except.ok.inj hown
          cases probe.healthy <;> exact ⟨hbody, rfl⟩
        rcases request_readiness date hsame.1 hsame.2 with ⟨hh, hc, hread⟩ | ⟨hbad, hread⟩
        · refine .inl ⟨by rw [hsame.2, hh]; rfl, fun _ hp => ?_, hread⟩
          cases hp
          exact ⟨hh, hc⟩
        · exact .inr (.inr ⟨probe, rfl, hbad, hread⟩)
      · cases hown
  · exact .inr (.inl (request_errorReply_get hpath herror))

/-- A pod whose Redis check outran its budget. -/
def degradedProbe : ReadinessProbe := { probeOf syncedClock with redis := none }

theorem client_get_degraded :
    (∀ c ∈ [auroraSeed], ScriptCall.Issued isoDate c) ∧ ∃ reply,
    (⟨"flash-2026", "/api/health/ready", "req-1", 0⟩ : Arrival).answer none
      ((RouteCall.readiness degradedProbe).handle fivePerSecond "req-1" (saleAfter [auroraSeed])) =
      .ok reply ∧
    reply.status = 503 ∧ ApiClient.request isoDate (decodeReadiness isoDate) false 0 1
      reply.received = .error .unexpected := by
  refine ⟨auroraSeed_calls_issued, ?_⟩
  have htime : isoTime (degradedProbe.clock.nowMs degradedProbe.now) =
      .ok (Date.toISOString (1501 + syncedClock.offsetMs)) :=
    if_pos (show |1501 + syncedClock.offsetMs| ≤ _ by decide +kernel)
  obtain ⟨body, hbody⟩ : ∃ body, degradedProbe.getReadiness = .ok body := by
    simp only [ReadinessProbe.getReadiness, htime]
    exact ⟨_, rfl⟩
  have h : ∃ reply, (⟨"flash-2026", "/api/health/ready", "req-1", 0⟩ : Arrival).answer none
      ((RouteCall.readiness degradedProbe).handle fivePerSecond "req-1" (saleAfter [auroraSeed])) =
      .ok reply ∧ reply.status = 503 ∧ reply.body = body := by
    simp only [Arrival.answer, RouteCall.handle, getReadinessRoute, hbody]
    exact ⟨_, rfl, rfl, rfl⟩
  obtain ⟨reply, hreply, hstatus, hsame⟩ := h
  refine ⟨reply, hreply, hstatus, ?_⟩
  rcases client_get auroraSeed_calls_issued rfl (fun _ hp => by cases hp) (by decide) hreply with
    ⟨hok, -⟩ | ⟨-, e, herror, hkind⟩ | ⟨-, -, -, hread⟩
  · rw [hstatus] at hok
    cases hok
  · -- the body of a readiness answer is no error body
    rcases request_readiness isoDate (hsame ▸ hbody) hstatus with ⟨hhealthy, -⟩ | ⟨-, hread⟩
    · cases hhealthy
    · rw [hread] at herror
      obtain rfl := Except.error.inj herror
      cases hkind
  · exact hread

end FlashSale
