import FlashSale.Redis.SaleSeed
import FlashSale.Redis.SaleStore
import FlashSale.Worker.Reconciliation

/-!
# From a request to a row

A user id passes seven checks on its way from a request to a row of `orders`: the schema of the
body, the prefilter of the rate limiter, the form of the web client, the payload of the queue, the
inputs of compare-and-restore and of the membership inspection, and the constraints of the table.
The first three agree (`userIdSchema` trims, and a trimmed id of permitted characters is trimmed for
good), and what they accept, with the request id of the API and an id of `randomUUID`, makes a
`Valid` payload, which every later check accepts.
-/

namespace FlashSale

/-! ## Request bodies -/

/-- `USER_ID_PATTERN.test`. -/
def userIdPattern (s : String) : Bool := !s.toList.isEmpty && s.toList.all isUserIdChar

/-- The text is within the limits of a user id. -/
def userIdLength (s : String) : Bool :=
  decide (USER_ID_MIN_LENGTH ≤ jsLength s) && decide (jsLength s ≤ USER_ID_MAX_LENGTH)

/-- `userIdSchema.safeParse`: a string, trimmed, then its length and its pattern. -/
def userIdSchema : JsValue → Option String
  | .string raw =>
    let value := jsTrim raw
    if userIdLength value && userIdPattern value then some value else none
  | _ => none

/-- `purchaseRequestSchema.safeParse`: an object with the one key `userId`. -/
def purchaseRequestSchema : JsValue → Option String
  | .object fields =>
    if fields.all (fun f => f.1 == "userId") then userIdSchema (JsValue.get fields "userId")
    else none
  | _ => none

/-- `extractRateLimitCandidateUserId`; a read of `userId` off an array is `undefined`. -/
def extractRateLimitCandidateUserId (body : JsValue) : Option String :=
  let raw := match body with
    | .object fields => JsValue.get fields "userId"
    | _ => .undefined
  match raw with
  | .string raw =>
    let candidate := jsTrim raw
    if jsLength candidate < USER_ID_MIN_LENGTH ∨ USER_ID_MAX_LENGTH < jsLength candidate then none
    else if !userIdPattern candidate then none
    else some candidate
  | _ => none

def USER_ID_ERROR : String := "Enter 3–64 characters using letters, numbers, ., _, @, or -."

/-- `validateUserId` of the web form. -/
def validateUserId (raw : String) : Except String String :=
  let value := jsTrim raw
  if jsLength value < USER_ID_MIN_LENGTH ∨ USER_ID_MAX_LENGTH < jsLength value ∨
      userIdPattern value = false then
    .error USER_ID_ERROR
  else .ok value

theorem userIdSchema_some {v : JsValue} {u : String} (h : userIdSchema v = some u) :
    ∃ raw, v = .string raw ∧ u = jsTrim raw ∧ userIdLength u = true ∧ userIdPattern u = true := by
  cases v with
  | string raw =>
    simp only [userIdSchema] at h
    split_ifs at h with hu
    obtain rfl := Option.some.inj h
    rw [Bool.and_eq_true] at hu
    exact ⟨raw, rfl, rfl, hu.1, hu.2⟩
  | _ => cases h

/-- The output of the schema is a user id of the queue. -/
theorem isUserId_of_schema {v : JsValue} {u : String} (h : userIdSchema v = some u) :
    isUserId u = true := by
  obtain ⟨raw, -, -, hlength, hpattern⟩ := userIdSchema_some h
  unfold userIdPattern at hpattern
  rw [Bool.and_eq_true] at hpattern
  have htrim : jsTrim u = u :=
    jsTrim_of_forall fun c hc => isJsSpace_of_isUserIdChar (List.all_eq_true.1 hpattern.2 c hc)
  unfold userIdLength at hlength
  unfold isUserId
  rw [htrim, Bool.and_assoc, Bool.and_assoc, Bool.and_eq_true, Bool.and_eq_true]
  rw [Bool.and_eq_true] at hlength
  simp [hlength.1, hlength.2, hpattern]

theorem purchaseRequestSchema_some {body : JsValue} {u : String}
    (h : purchaseRequestSchema body = some u) :
    ∃ fields, body = .object fields ∧ userIdSchema (JsValue.get fields "userId") = some u := by
  cases body with
  | object fields =>
    simp only [purchaseRequestSchema] at h
    split_ifs at h
    exact ⟨fields, rfl, h⟩
  | _ => cases h

theorem extract_of_schema {body : JsValue} {u : String} (h : purchaseRequestSchema body = some u) :
    extractRateLimitCandidateUserId body = some u := by
  obtain ⟨fields, rfl, hid⟩ := purchaseRequestSchema_some h
  obtain ⟨raw, hraw, rfl, hlength, hpattern⟩ := userIdSchema_some hid
  unfold userIdLength at hlength
  simp only [Bool.and_eq_true, decide_eq_true_eq] at hlength
  unfold extractRateLimitCandidateUserId
  simp only [hraw]
  rw [if_neg (by omega), if_neg (by simp [hpattern])]

theorem validateUserId_of_schema {raw u : String} (h : userIdSchema (.string raw) = some u) :
    validateUserId raw = .ok u := by
  obtain ⟨raw', hraw, rfl, hlength, hpattern⟩ := userIdSchema_some h
  obtain rfl : raw = raw' := by injection hraw
  unfold userIdLength at hlength
  simp only [Bool.and_eq_true, decide_eq_true_eq] at hlength
  unfold validateUserId
  simp only
  rw [if_neg]
  rw [hpattern]
  rintro (hlt | hlt | hlt)
  · omega
  · omega
  · cases hlt

/-! ## Request ids -/

/-- `REQUEST_ID_PATTERN.test` of the API: at most 64 characters. -/
def isApiRequestId (s : String) : Bool :=
  s.toList.all isRequestIdChar && decide (1 ≤ s.toList.length) && decide (s.toList.length ≤ 64)

/-- `extractOrGenerateRequestId`; `fresh` is the `randomUUID()` of the call. -/
def extractOrGenerateRequestId (inbound : JsValue) (fresh : String) : String :=
  let candidate := match inbound with
    | .array (first :: _) => first
    | .array [] => .undefined
    | _ => inbound
  match candidate with
  | .string id => if isApiRequestId id then id else fresh
  | _ => fresh

theorem matchesClasses_length {ps : List (Char → Bool)} {cs : List Char}
    (h : matchesClasses ps cs = true) : cs.length = ps.length := by
  induction ps generalizing cs with
  | nil =>
    cases cs with
    | nil => rfl
    | cons c cs => cases h
  | cons p ps ih =>
    cases cs with
    | nil => cases h
    | cons c cs =>
      simp only [matchesClasses, Bool.and_eq_true] at h
      simp [ih h.2]

/-- Every character of a text in the classes has a property that all characters of each class have. -/
theorem matchesClasses_all {ps : List (Char → Bool)} {cs : List Char} {q : Char → Bool}
    (h : matchesClasses ps cs = true) (hq : ∀ p ∈ ps, ∀ c, p c = true → q c = true) :
    cs.all q = true := by
  induction ps generalizing cs with
  | nil =>
    cases cs with
    | nil => rfl
    | cons c cs => cases h
  | cons p ps ih =>
    cases cs with
    | nil => cases h
    | cons c cs =>
      simp only [matchesClasses, Bool.and_eq_true] at h
      simp only [List.all_cons, Bool.and_eq_true]
      exact ⟨hq p List.mem_cons_self c h.1, ih h.2 fun r hr => hq r (List.mem_cons_of_mem _ hr)⟩

theorem isRequestIdChar_of_isHex {c : Char} (h : isHex c = true) : isRequestIdChar c = true := by
  simp only [isHex, Bool.or_eq_true, Bool.and_eq_true, decide_eq_true_eq] at h
  unfold isRequestIdChar isLower isUpper
  simp only [Bool.or_eq_true, Bool.and_eq_true, decide_eq_true_eq]
  rcases h with (h | h) | h
  · exact .inl (.inr h)
  · have hz : 'f' ≤ 'z' := by decide
    exact .inl (.inl (.inl ⟨h.1, Char.le_trans h.2 hz⟩))
  · have hz : 'F' ≤ 'Z' := by decide
    exact .inl (.inl (.inr ⟨h.1, Char.le_trans h.2 hz⟩))

/-- Every position of a UUID holds a hexadecimal digit or a dash. -/
theorem uuidPatterns_requestId : ∀ ps ∈ uuidPatterns, ∀ p ∈ ps, ∀ c, p c = true →
    isRequestIdChar c = true := by
  have hdash : ∀ c, isDash c = true → isRequestIdChar c = true := by
    intro c hc
    obtain rfl : c = '-' := by simpa [isDash] using hc
    decide
  have hversion : ∀ c, ('1' ≤ c && c ≤ '8') = true → isRequestIdChar c = true := by
    intro c hc
    simp only [Bool.and_eq_true, decide_eq_true_eq] at hc
    refine isRequestIdChar_of_isHex ?_
    unfold isHex isDigit
    simp only [Bool.or_eq_true, Bool.and_eq_true, decide_eq_true_eq]
    have h0 : '0' ≤ '1' := by decide
    have h9 : '8' ≤ '9' := by decide
    exact .inl (.inl ⟨Char.le_trans h0 hc.1, Char.le_trans hc.2 h9⟩)
  have hvariant : ∀ c, ['8', '9', 'a', 'b', 'A', 'B'].contains c = true →
      isRequestIdChar c = true := by
    intro c hc
    simp only [List.contains_iff_mem, List.mem_cons, List.not_mem_nil, or_false] at hc
    rcases hc with rfl | rfl | rfl | rfl | rfl | rfl
    all_goals decide
  have hzero : ∀ c, (c == '0') = true → isRequestIdChar c = true := by
    intro c hc
    obtain rfl : c = '0' := by simpa using hc
    decide
  have heff : ∀ c, (c == 'f' || c == 'F') = true → isRequestIdChar c = true := by
    intro c hc
    simp only [Bool.or_eq_true, beq_iff_eq] at hc
    rcases hc with rfl | rfl
    all_goals decide
  intro ps hps p hp c hc
  simp only [uuidPatterns, List.mem_cons, List.not_mem_nil, or_false] at hps
  rcases hps with rfl | rfl | rfl
  all_goals
    simp only [List.mem_append, List.mem_replicate, List.mem_cons, List.not_mem_nil, or_false] at hp
    obtain (((((((⟨-, rfl⟩ | rfl) | ⟨-, rfl⟩) | (rfl | rfl)) | ⟨-, rfl⟩) | (rfl | rfl)) | ⟨-, rfl⟩) |
      rfl) | ⟨-, rfl⟩ := hp
    all_goals first
      | exact isRequestIdChar_of_isHex hc
      | exact hdash c hc
      | exact hversion c hc
      | exact hvariant c hc
      | exact hzero c hc
      | exact heff c hc

theorem requestIdChars_of_isUuid {s : String} (h : isUuid s = true) :
    s.toList.all isRequestIdChar = true ∧ s.toList.length = 36 := by
  unfold isUuid at h
  obtain ⟨ps, hps, hm⟩ := List.any_eq_true.1 h
  have hlength : ∀ ps ∈ uuidPatterns, ps.length = 36 := by decide
  exact ⟨matchesClasses_all hm (uuidPatterns_requestId ps hps),
    (matchesClasses_length hm).trans (hlength ps hps)⟩

/-- The request id of the API is a request id of the queue. -/
theorem isRequestId_of_extract (inbound : JsValue) {fresh : String} (hfresh : isUuid fresh = true) :
    isRequestId (extractOrGenerateRequestId inbound fresh) = true := by
  have huuid : isRequestId fresh = true := by
    obtain ⟨hall, hlength⟩ := requestIdChars_of_isUuid hfresh
    unfold isRequestId
    rw [hall, hlength]
    rfl
  have hinbound : ∀ id, isApiRequestId id = true → isRequestId id = true := by
    intro id hid
    unfold isApiRequestId at hid
    unfold isRequestId
    simp only [Bool.and_eq_true, decide_eq_true_eq] at hid ⊢
    exact ⟨hid.1, by omega⟩
  unfold extractOrGenerateRequestId
  dsimp only
  split
  · rename_i id _
    by_cases hid : isApiRequestId id = true
    · rw [if_pos hid]
      exact hinbound id hid
    · rw [if_neg hid]
      exact huuid
  · exact huuid

/-! ## Confirmed purchases -/

structure PurchaseResult where
  outcome : PurchaseOutcome
  stockRemaining : ℤ
  serverTimeMs : ℕ
  reservationId : Option String
  deriving DecidableEq, Repr

/-- `SaleRedisStore.purchase`; `fresh` is the `randomUUID()` of the call. -/
def storePurchase (saleId : String) (s : Sale) (userId fresh : String) (t : RedisTime) :
    Except Failure PurchaseResult :=
  match assertSaleId saleId with
  | .error e => .error e
  | .ok () =>
    let reply := (purchase s userId fresh t).1
    .ok ⟨reply.outcome, reply.stockRemaining, reply.nowMs,
      if reply.outcome = .confirmed then some reply.reservationId else none⟩

/-- The payload `PurchaseService.purchase` enqueues for a confirmed purchase. -/
def confirmedPayload (saleId userId requestId : String) (result : PurchaseResult) :
    OrdersQueueJobPayload :=
  { saleId
    userId
    reservationId := result.reservationId.getD ""
    reservedAtMs := result.serverTimeMs
    requestId }

/-- Every check after the queue accepts the order: the payload and its job id, the processor down to
its call of `persist`, the inputs of the store, and the constraints of the table. -/
structure Persistable (p : OrdersQueueJobPayload) : Prop where
  payload : assertOrdersQueueJobPayload p.toJs = .ok p
  jobId : ∃ id, buildOrdersJobId p.saleId p.userId = .ok id ∧ ∀ (q : JobQueue) (c : ℕ),
    process c (q.newJob id PERSIST_ORDER_JOB_NAME p.toJs ORDERS_JOB_ATTEMPTS) =
      (persist c p).bind fun _ => .pure ()
  restore : Store.compareAndRestoreReservation p.saleId
    ⟨p.userId, p.reservationId, p.reservedAtMs⟩ =
      (request (.compareRestore p.saleId p.userId p.reservationId p.reservedAtMs)).bind fun raw =>
        (Prog.ofExcept (parseReservationEntry p.userId raw.2)).bind fun e => .pure (raw.1, e)
  membership : Store.inspectReservationMembership p.saleId p.userId =
    (request (.inspect p.saleId p.userId)).bind fun raw =>
      Prog.ofExcept (Store.decodeReservationMembershipInspection p.userId raw)
  row : p.rowAllowed = true

theorem OrdersQueueJobPayload.Valid.persistable {p : OrdersQueueJobPayload} (h : p.Valid) :
    Persistable p where
  payload := assertOrdersQueueJobPayload_toJs h
  jobId := by
    have hid : buildOrdersJobId p.saleId p.userId = .ok (p.saleId ++ "-" ++ p.userId) := by
      unfold buildOrdersJobId assertSaleId assertUserId
      rw [if_pos h.saleId, if_pos h.userId]
      rfl
    refine ⟨_, hid, ?_⟩
    intro q c
    unfold process JobQueue.newJob
    simp [Prog.throwIf, assertOrdersQueueJobPayload_toJs h, hid]
  restore := by
    have hinput : Store.assertCompareRestoreReservationInput
        ⟨p.userId, p.reservationId, p.reservedAtMs⟩ = .ok () := by
      unfold Store.assertCompareRestoreReservationInput
      rw [if_neg (by simp [h.userId]), if_neg (by simp [h.reservationId]),
        if_neg (by simpa using h.reservedAtMs)]
    unfold Store.compareAndRestoreReservation
    simp [assertSaleId, h.saleId, hinput]
  membership := by
    unfold Store.inspectReservationMembership
    simp [assertSaleId, h.saleId, h.userId, Prog.throwIf]
  row := h.rowAllowed

/-- A confirmed purchase returns the id it was given and its time, which is a safe integer: a sale
sells only at times a `Date` can hold. -/
theorem storePurchase_confirmed {date : JsDate} {calls : List ScriptCall}
    (hcalls : ∀ c ∈ calls, c.Issued date) {saleId u fresh : String} {t : RedisTime}
    {result : PurchaseResult} (h : storePurchase saleId (saleAfter calls) u fresh t = .ok result)
    (hconfirmed : result.outcome = .confirmed) :
    isSaleId saleId = true ∧ result.reservationId = some fresh ∧
      result.serverTimeMs ≤ MAX_SAFE_INTEGER := by
  unfold storePurchase at h
  cases hsale : assertSaleId saleId with
  | error e => rw [hsale] at h; cases h
  | ok x =>
    rw [hsale] at h
    obtain rfl := Except.ok.inj h
    refine ⟨assertSaleId_ok hsale, ?_⟩
    rcases purchase_cases (saleAfter calls) u fresh t with ⟨hreply, hp⟩ | ⟨hn, -⟩
    · obtain ⟨cfg, hcfg, -, hend⟩ := hp.window
      have hle := abs_le.1 (date.abs_le_of_parse (parsed_saleAfter hcalls hcfg).endsAt)
      unfold Date.MAX_TIME_VALUE at hle
      rw [hreply]
      refine ⟨rfl, ?_⟩
      show t.nowMs ≤ MAX_SAFE_INTEGER
      unfold MAX_SAFE_INTEGER
      omega
    · exact absurd hconfirmed hn

/-- The payload of a confirmed purchase passes every check of the queue. -/
theorem confirmedPayload_valid {date : JsDate} {calls : List ScriptCall}
    (hcalls : ∀ c ∈ calls, c.Issued date) {body header : JsValue}
    {saleId u freshRequest fresh : String} {t : RedisTime} {result : PurchaseResult}
    (hbody : purchaseRequestSchema body = some u) (hrequest : isUuid freshRequest = true)
    (hfresh : isUuid fresh = true)
    (h : storePurchase saleId (saleAfter calls) u fresh t = .ok result)
    (hconfirmed : result.outcome = .confirmed) :
    (confirmedPayload saleId u (extractOrGenerateRequestId header freshRequest) result).Valid := by
  obtain ⟨fields, rfl, hfield⟩ := purchaseRequestSchema_some hbody
  obtain ⟨hsale, hid, hms⟩ := storePurchase_confirmed hcalls h hconfirmed
  refine ⟨hsale, isUserId_of_schema hfield, ?_, hms, isRequestId_of_extract header hrequest⟩
  show isUuid (result.reservationId.getD "") = true
  rw [hid]
  exact hfresh

theorem repairPayload_valid (env : WorkerEnv) {u v : String} {e : ReservationEntry}
    (hu : isUserId u = true) (h : parseReservationEntry u v = .ok e) :
    (repairPayload env e).Valid := by
  obtain ⟨hid, hms⟩ := parseReservationEntry_valid h
  obtain ⟨hchars, hlength⟩ := requestIdChars_of_isUuid hid
  refine ⟨env.saleId_valid, ?_, hid, hms, ?_⟩
  · show isUserId e.userId = true
    rw [(parseReservationEntry_ok h).1]
    exact hu
  · show isRequestId ("reconcile-" ++ e.reservationId) = true
    unfold isRequestId
    rw [String.toList_append, List.all_append, List.length_append, hchars, hlength]
    decide

/-- **The validation chain.** A body the schema accepts is accepted by the limiter and the form with
the same id, a purchase it confirms can be persisted whatever request id came with it, and so can
every payload the worker builds from a ledger entry of the user. A body without a candidate for the
limiter is rejected by the schema. -/
theorem validation_chain (date : JsDate) (calls : List ScriptCall)
    (hcalls : ∀ c ∈ calls, c.Issued date) (body : JsValue) :
    (∀ u, purchaseRequestSchema body = some u →
      extractRateLimitCandidateUserId body = some u ∧
      (∃ fields raw, body = .object fields ∧ JsValue.get fields "userId" = .string raw ∧
        validateUserId raw = .ok u) ∧
      (∀ (saleId : String) (header : JsValue) (freshRequest fresh : String) (t : RedisTime)
          (result : PurchaseResult), isUuid freshRequest = true → isUuid fresh = true →
        storePurchase saleId (saleAfter calls) u fresh t = .ok result →
        result.outcome = .confirmed →
        Persistable (confirmedPayload saleId u (extractOrGenerateRequestId header freshRequest)
          result)) ∧
      ∀ (env : WorkerEnv) (v : String) (e : ReservationEntry), parseReservationEntry u v = .ok e →
        Persistable (repairPayload env e)) ∧
    (extractRateLimitCandidateUserId body = none → purchaseRequestSchema body = none) := by
  refine ⟨?_, ?_⟩
  · intro u hbody
    obtain ⟨fields, rfl, hfield⟩ := purchaseRequestSchema_some hbody
    have hu : isUserId u = true := isUserId_of_schema hfield
    refine ⟨extract_of_schema hbody, ?_, ?_, ?_⟩
    · obtain ⟨raw, hraw, -⟩ := userIdSchema_some hfield
      rw [hraw] at hfield
      exact ⟨fields, raw, rfl, hraw, validateUserId_of_schema hfield⟩
    · intro saleId header freshRequest fresh t result hrequest hfresh hstore hconfirmed
      exact (confirmedPayload_valid hcalls hbody hrequest hfresh hstore hconfirmed).persistable
    · intro env v e he
      exact (repairPayload_valid env hu he).persistable
  · intro hnone
    cases h : purchaseRequestSchema body with
    | none => rfl
    | some u =>
      rw [extract_of_schema h] at hnone
      cases hnone

/-- A body with white space around the id. -/
def aliceBody : JsValue := .object [("userId", .string "  alice ")]

theorem validation_chain_alice :
    (∀ c ∈ [auroraSeed], c.Issued isoDate) ∧
      purchaseRequestSchema aliceBody = some "alice" ∧
      extractRateLimitCandidateUserId aliceBody = some "alice" ∧
      Persistable ⟨"flash-2026", "alice", "00000000-0000-0000-0000-000000000000", 1500,
        "ffffffff-ffff-ffff-ffff-ffffffffffff"⟩ := by
  have hcalls : ∀ c ∈ [auroraSeed], c.Issued isoDate := by
    intro c hc
    rw [List.mem_singleton.1 hc]
    exact auroraSeed_issued
  have hbody : purchaseRequestSchema aliceBody = some "alice" := by decide +kernel
  obtain ⟨hextract, -, hpersist, -⟩ := (validation_chain isoDate [auroraSeed] hcalls aliceBody).1
    "alice" hbody
  have hstore : storePurchase "flash-2026" (saleAfter [auroraSeed]) "alice"
      "00000000-0000-0000-0000-000000000000" ⟨1, 500000⟩ =
        .ok ⟨.confirmed, 0, 1500, some "00000000-0000-0000-0000-000000000000"⟩ := by
    rfl
  exact ⟨hcalls, hbody, hextract, hpersist "flash-2026" (.string "not a request id")
    "ffffffff-ffff-ffff-ffff-ffffffffffff" _ _ _ (by decide +kernel) (by decide +kernel) hstore rfl⟩

end FlashSale
