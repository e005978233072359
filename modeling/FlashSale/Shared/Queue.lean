import FlashSale.Lib.JsonText
import Mathlib.Algebra.GroupWithZero.Nat
import Mathlib.Data.List.Basic
import Mathlib.Data.Rat.Defs

/-!
# Identifiers and queue payloads of `@flash/shared`

The character classes of `SALE_ID_PATTERN`, `USER_ID_PATTERN`, `UUID_PATTERN` and
`REQUEST_ID_PATTERN`, the job id `<saleId>-<userId>`, and `assertOrdersQueueJobPayload`, which
reads a JSON value as a payload. The UUID pattern ignores case (`/i`), so one id has several
accepted spellings; none of them contains a colon (`colon_notMem_of_isUuid`).
-/

namespace FlashSale

/-- What a rejected call or a `throw` of the worker carries. `upstream` is the failure of a call
into Redis, BullMQ or Postgres itself; `outOfFuel` ends a loop of the model that was cut short. -/
inductive Failure where
  | error (message : String)
  | typeError (message : String)
  | persistenceConflict (message : String)
  | aggregate (errors : List Failure) (message : String)
  | rangeError (message : String)
  | upstream
  | outOfFuel

/-- `error.message`. -/
def Failure.message : Failure → String
  | .error m | .typeError m | .rangeError m | .persistenceConflict m | .aggregate _ m => m
  | .upstream | .outOfFuel => ""

section

variable {α β : Type}

/-- The two steps of a computation that returns. -/
theorem bind_eq_ok {x : Except Failure α} {f : α → Except Failure β} {b : β}
    (h : (x >>= f) = .ok b) : ∃ a, x = .ok a ∧ f a = .ok b := by
  cases x with
  | error e => cases h
  | ok a => exact ⟨a, rfl, h⟩

/-- A check that was passed. -/
theorem throw_eq_ok {P : Prop} [Decidable P] {e : Failure} {x : Except Failure β} {b : β}
    (h : (do
      if P then throw e
      x) = .ok b) : ¬ P ∧ x = .ok b := by
  by_cases hp : P
  · rw [if_pos hp] at h
    cases h
  · rw [if_neg hp] at h
    exact ⟨hp, h⟩

end

/-! ## Patterns -/

/-- One character class for each position of the text. -/
def matchesClasses : List (Char → Bool) → List Char → Bool
  | [], [] => true
  | p :: ps, c :: cs => p c && matchesClasses ps cs
  | _, _ => false

def isDigit (c : Char) : Bool := '0' ≤ c && c ≤ '9'

def isLower (c : Char) : Bool := 'a' ≤ c && c ≤ 'z'

def isUpper (c : Char) : Bool := 'A' ≤ c && c ≤ 'Z'

/-- `[0-9a-f]` under the `i` flag. -/
def isHex (c : Char) : Bool := isDigit c || ('a' ≤ c && c ≤ 'f') || ('A' ≤ c && c ≤ 'F')

def isDash (c : Char) : Bool := c == '-'

/-- The three alternatives of `UUID_PATTERN`: versions 1 to 8, the nil and the max UUID. -/
def uuidPatterns : List (List (Char → Bool)) :=
  let shape (v w h : Char → Bool) :=
    List.replicate 8 h ++ [isDash] ++ List.replicate 4 h ++ [isDash, v] ++ List.replicate 3 h ++
      [isDash, w] ++ List.replicate 3 h ++ [isDash] ++ List.replicate 12 h
  let zero (c : Char) := c == '0'
  let eff (c : Char) := c == 'f' || c == 'F'
  [shape (fun c => '1' ≤ c && c ≤ '8') (fun c => ['8', '9', 'a', 'b', 'A', 'B'].contains c) isHex,
    shape zero zero zero, shape eff eff eff]

/-- `UUID_PATTERN.test`. -/
def isUuid (s : String) : Bool := uuidPatterns.any (matchesClasses · s.toList)

theorem matchesClasses_forall {ps : List (Char → Bool)} {cs : List Char} {c : Char}
    (h : matchesClasses ps cs = true) (hps : ∀ p ∈ ps, p c = false) : c ∉ cs := by
  induction ps generalizing cs with
  | nil => cases cs <;> simp_all [matchesClasses]
  | cons p ps ih =>
    cases cs with
    | nil => simp
    | cons d ds =>
      simp only [matchesClasses, Bool.and_eq_true] at h
      intro hmem
      rcases List.mem_cons.1 hmem with rfl | hmem
      · have := hps p (by simp)
        simp_all
      · exact ih h.2 (fun q hq => hps q (by simp [hq])) hmem

/-- No spelling of a UUID contains the separator of a ledger value. -/
theorem colon_notMem_of_isUuid {s : String} (h : isUuid s = true) : ':' ∉ s.toList := by
  unfold isUuid at h
  obtain ⟨ps, hps, hm⟩ := List.any_eq_true.1 h
  have hcolon : ∀ ps ∈ uuidPatterns, ∀ p ∈ ps, p ':' = false := by decide
  exact matchesClasses_forall hm (hcolon ps hps)

def USER_ID_MIN_LENGTH : ℕ := 3
def USER_ID_MAX_LENGTH : ℕ := 64

/-- `[a-zA-Z0-9._@-]`. -/
def isUserIdChar (c : Char) : Bool :=
  isLower c || isUpper c || isDigit c || ['.', '_', '@', '-'].contains c

/-- `[a-z0-9._-]`. -/
def isSaleIdChar (c : Char) : Bool := isLower c || isDigit c || ['.', '_', '-'].contains c

/-- `[A-Za-z0-9_-]`. -/
def isRequestIdChar (c : Char) : Bool :=
  isLower c || isUpper c || isDigit c || ['_', '-'].contains c

/-- `SALE_ID_PATTERN.test`: one of `[a-z0-9]`, then at most 63 of `[a-z0-9._-]`. -/
def isSaleId (s : String) : Bool :=
  match s.toList with
  | [] => false
  | c :: cs => (isLower c || isDigit c) && cs.all isSaleIdChar && decide (cs.length ≤ 63)

/-- `REQUEST_ID_PATTERN.test`. -/
def isRequestId (s : String) : Bool :=
  s.toList.all isRequestIdChar && decide (1 ≤ s.toList.length) && decide (s.toList.length ≤ 128)

/-- JavaScript white space and line terminators. -/
def isJsSpace (c : Char) : Bool :=
  [0x9, 0xA, 0xB, 0xC, 0xD, 0x20, 0xA0, 0x1680, 0x2028, 0x2029, 0x202F, 0x205F, 0x3000,
    0xFEFF].contains c.toNat || (0x2000 ≤ c.toNat && c.toNat ≤ 0x200A)

/-- `String.prototype.trim`. -/
def jsTrim (s : String) : String :=
  String.ofList ((s.toList.dropWhile isJsSpace).reverse.dropWhile isJsSpace).reverse

/-- A text without white space is its own trimming. -/
theorem jsTrim_of_forall {s : String} (h : ∀ c ∈ s.toList, isJsSpace c = false) :
    jsTrim s = s := by
  have hid : ∀ cs : List Char, (∀ c ∈ cs, isJsSpace c = false) → cs.dropWhile isJsSpace = cs := by
    intro cs hcs
    cases cs with
    | nil => rfl
    | cons c cs => rw [List.dropWhile_cons_of_neg (by simp [hcs c List.mem_cons_self])]
  unfold jsTrim
  rw [hid _ h, hid _ fun c hc => h c (List.mem_reverse.1 hc), List.reverse_reverse,
    String.ofList_toList]

/-- `String.prototype.length`: UTF-16 code units. -/
def jsLength (s : String) : ℕ := (s.toList.map fun c => if c.toNat < 0x10000 then 1 else 2).sum

/-- The check of `assertUserId`, of the membership inspection and of the compare-and-restore
input: three functions of the source with one body. -/
def isUserId (s : String) : Bool :=
  s == jsTrim s && decide (USER_ID_MIN_LENGTH ≤ jsLength s) &&
    decide (jsLength s ≤ USER_ID_MAX_LENGTH) && !s.toList.isEmpty && s.toList.all isUserIdChar

theorem toNat_lt_of_isUserIdChar {c : Char} (h : isUserIdChar c = true) : c.toNat < 0x80 := by
  have hle : ∀ d : Char, c ≤ d → c.toNat ≤ d.toNat := fun d hd => hd
  simp only [isUserIdChar, isLower, isUpper, isDigit, Bool.or_eq_true, Bool.and_eq_true,
    decide_eq_true_eq, List.contains_iff_mem, List.mem_cons, List.not_mem_nil, or_false] at h
  rcases h with ((h | h) | h) | (rfl | rfl | rfl | rfl)
  · exact lt_of_le_of_lt (hle 'z' h.2) (by decide)
  · exact lt_of_le_of_lt (hle 'Z' h.2) (by decide)
  · exact lt_of_le_of_lt (hle '9' h.2) (by decide)
  all_goals decide

theorem isJsSpace_of_isUserIdChar {c : Char} (h : isUserIdChar c = true) : isJsSpace c = false := by
  have hle : ∀ d : Char, (c ≤ d → c.toNat ≤ d.toNat) ∧ (d ≤ c → d.toNat ≤ c.toNat) :=
    fun d => ⟨id, id⟩
  have hprint : 0x21 ≤ c.toNat ∧ c.toNat < 0x80 := by
    refine ⟨?_, toNat_lt_of_isUserIdChar h⟩
    simp only [isUserIdChar, isLower, isUpper, isDigit, Bool.or_eq_true, Bool.and_eq_true,
      decide_eq_true_eq, List.contains_iff_mem, List.mem_cons, List.not_mem_nil, or_false] at h
    rcases h with ((h | h) | h) | (rfl | rfl | rfl | rfl)
    · exact le_trans (by decide) ((hle 'a').2 h.1)
    · exact le_trans (by decide) ((hle 'A').2 h.1)
    · exact le_trans (by decide) ((hle '0').2 h.1)
    all_goals decide
  unfold isJsSpace
  rw [Bool.or_eq_false_iff, Bool.and_eq_false_iff]
  refine ⟨?_, .inl (by simp; omega)⟩
  rw [← Bool.not_eq_true, List.contains_iff_mem]
  simp only [List.mem_cons, List.not_mem_nil, or_false]
  omega

/-- A text of ASCII characters has one code unit for each character. -/
theorem jsLength_of_isUserIdChar {s : String} (h : s.toList.all isUserIdChar = true) :
    jsLength s = s.toList.length := by
  have hone : ∀ c ∈ s.toList, (if c.toNat < 0x10000 then 1 else 2) = 1 := fun c hc => by
    rw [if_pos]
    have := toNat_lt_of_isUserIdChar (List.all_eq_true.1 h c hc)
    omega
  unfold jsLength
  rw [List.map_congr_left hone]
  simp

theorem length_of_isUserId {s : String} (h : isUserId s = true) :
    USER_ID_MIN_LENGTH ≤ s.toList.length ∧ s.toList.length ≤ USER_ID_MAX_LENGTH := by
  unfold isUserId at h
  simp only [Bool.and_eq_true, decide_eq_true_eq] at h
  obtain ⟨⟨⟨⟨-, hmin⟩, hmax⟩, -⟩, hall⟩ := h
  rw [jsLength_of_isUserIdChar hall] at hmin hmax
  exact ⟨hmin, hmax⟩

/-! ## Job ids and payloads -/

def PERSIST_ORDER_JOB_NAME : String := "persist-order"
def ORDERS_JOB_ATTEMPTS : ℕ := 5

/-- `Number.MAX_SAFE_INTEGER`. -/
def MAX_SAFE_INTEGER : ℕ := 2 ^ 53 - 1

structure OrdersQueueJobPayload where
  saleId : String
  userId : String
  reservationId : String
  reservedAtMs : ℕ
  requestId : String
  deriving DecidableEq, Repr

/-- `SALE_ID_PATTERN.source`. -/
def SALE_ID_PATTERN_SOURCE : String := "^[a-z0-9][a-z0-9._-]\x7b0,63\x7d$"

/-- The `TypeError` of `assertSaleId`; `shown` is `JSON.stringify(saleId)`. -/
def invalidSaleId (shown : List Char) : Failure :=
  .typeError (s!"Invalid saleId {String.ofList shown}: must match {SALE_ID_PATTERN_SOURCE} " ++
    "(lowercase alphanumeric, \"._-\", 1-64 chars, no braces/colons/whitespace)")

/-- `assertSaleId`. -/
def assertSaleId (saleId : String) : Except Failure Unit :=
  if isSaleId saleId then .ok () else .error (invalidSaleId (Json.quote saleId))

/-- `assertUserId` of `queue.ts`. -/
def assertUserId (userId : String) : Except Failure Unit :=
  if isUserId userId then .ok () else .error (.typeError "Invalid orders queue userId")

/-- `buildOrdersJobId`. -/
def buildOrdersJobId (saleId userId : String) : Except Failure String := do
  assertSaleId saleId
  assertUserId userId
  return saleId ++ "-" ++ userId

/-- A JSON value as BullMQ hands it back in `job.data`. -/
inductive JsValue where
  | undefined
  | null
  | bool (b : Bool)
  | number (n : ℚ)
  | string (s : String)
  | array (items : List JsValue)
  | object (fields : List (String × JsValue))

mutual

/-- What a template literal shows of `JSON.stringify(value)`. -/
def JsValue.stringify : JsValue → List Char
  | .undefined => "undefined".toList
  | .null => "null".toList
  | .bool b => (Json.bool b).stringify
  | .number n => Number.toText (.finite n)
  | .string s => Json.quote s
  | .array [] => ['[', ']']
  | .array (item :: items) => '[' :: (item.stringify ++ JsValue.stringifyItems items)
  | .object [] => ['{', '}']
  | .object ((key, value) :: fields) =>
    '{' :: (Json.quote key ++ ':' :: (value.stringify ++ JsValue.stringifyFields fields))

/-- The items of an array after the first one. -/
def JsValue.stringifyItems : List JsValue → List Char
  | [] => [']']
  | item :: items => ',' :: (item.stringify ++ JsValue.stringifyItems items)

/-- The fields of an object after the first one. -/
def JsValue.stringifyFields : List (String × JsValue) → List Char
  | [] => ['}']
  | (key, value) :: fields =>
    ',' :: (Json.quote key ++ ':' :: (value.stringify ++ JsValue.stringifyFields fields))

end

namespace JsValue

/-- Property read; a missing key reads as `undefined`. -/
def get (fields : List (String × JsValue)) (key : String) : JsValue :=
  ((fields.find? (·.1 == key)).map (·.2)).getD .undefined

def asString : JsValue → Option String
  | .string s => some s
  | _ => none

/-- The value of a safe non-negative integer. -/
def asSafeNat : JsValue → Option ℕ
  | .number n =>
    if n.den = 1 ∧ 0 ≤ n.num ∧ n.num.toNat ≤ MAX_SAFE_INTEGER then some n.num.toNat else none
  | _ => none

end JsValue

def PAYLOAD_KEYS : List String := ["saleId", "userId", "reservationId", "reservedAtMs", "requestId"]

/-- `assertOrdersQueueJobPayload`, returning the payload it narrows the value to. -/
def assertOrdersQueueJobPayload : JsValue → Except Failure OrdersQueueJobPayload
  | .object fields => do
    if fields.length ≠ PAYLOAD_KEYS.length ∨ fields.any (fun f => !PAYLOAD_KEYS.contains f.1) then
      throw (.typeError "Invalid orders queue job payload keys")
    let some saleId := (JsValue.get fields "saleId").asString
      | throw (invalidSaleId (JsValue.get fields "saleId").stringify)
    assertSaleId saleId
    let some userId := (JsValue.get fields "userId").asString
      | throw (.typeError "Invalid orders queue userId")
    assertUserId userId
    let some reservationId := ((JsValue.get fields "reservationId").asString).filter isUuid
      | throw (.typeError "Invalid orders queue reservationId")
    let some reservedAtMs := (JsValue.get fields "reservedAtMs").asSafeNat
      | throw (.typeError "Invalid orders queue reservedAtMs")
    let some requestId := ((JsValue.get fields "requestId").asString).filter isRequestId
      | throw (.typeError "Invalid orders queue requestId")
    return { saleId, userId, reservationId, reservedAtMs, requestId }
  | _ => throw (.typeError "Invalid orders queue job payload")

/-- The object literal a producer hands to `queue.add`. -/
def OrdersQueueJobPayload.toJs (p : OrdersQueueJobPayload) : JsValue :=
  .object [("saleId", .string p.saleId), ("userId", .string p.userId),
    ("reservationId", .string p.reservationId), ("reservedAtMs", .number p.reservedAtMs),
    ("requestId", .string p.requestId)]

/-- A payload whose every field passes its check. -/
structure OrdersQueueJobPayload.Valid (p : OrdersQueueJobPayload) : Prop where
  saleId : isSaleId p.saleId = true
  userId : isUserId p.userId = true
  reservationId : isUuid p.reservationId = true
  reservedAtMs : p.reservedAtMs ≤ MAX_SAFE_INTEGER
  requestId : isRequestId p.requestId = true

/-- A valid payload survives the trip through the queue. -/
theorem assertOrdersQueueJobPayload_toJs {p : OrdersQueueJobPayload} (h : p.Valid) :
    assertOrdersQueueJobPayload p.toJs = .ok p := by
  have hms : ((p.reservedAtMs : ℚ)).den = 1 ∧ 0 ≤ ((p.reservedAtMs : ℚ)).num ∧
      ((p.reservedAtMs : ℚ)).num.toNat ≤ MAX_SAFE_INTEGER := by
    simp [h.reservedAtMs]
  simp [assertOrdersQueueJobPayload, OrdersQueueJobPayload.toJs, JsValue.get, JsValue.asString,
    JsValue.asSafeNat, PAYLOAD_KEYS, assertSaleId, assertUserId, h.saleId, h.userId,
    h.reservationId, h.requestId, h.reservedAtMs, Option.filter]
  rfl

theorem assertSaleId_ok {s : String} {x : Unit} (h : assertSaleId s = .ok x) :
    isSaleId s = true := by
  unfold assertSaleId at h
  split_ifs at h with hs
  exact hs

theorem assertUserId_ok {s : String} {x : Unit} (h : assertUserId s = .ok x) :
    isUserId s = true := by
  unfold assertUserId at h
  split_ifs at h with hs
  exact hs

theorem asString_eq_some {v : JsValue} {s : String} (h : v.asString = some s) : v = .string s := by
  cases v with
  | string s' => exact congrArg _ (Option.some.inj h)
  | undefined | null | bool _ | number _ | array _ | object _ => cases h

theorem asSafeNat_eq_some {v : JsValue} {n : ℕ} (h : v.asSafeNat = some n) :
    v = .number n ∧ n ≤ MAX_SAFE_INTEGER := by
  cases v with
  | number q =>
    unfold JsValue.asSafeNat at h
    dsimp only at h
    split_ifs at h with hq
    obtain ⟨hden, hnum, hle⟩ := hq
    obtain rfl := Option.some.inj h
    refine ⟨congrArg _ (Rat.ext ?_ ?_), hle⟩
    · rw [Rat.num_natCast, Int.toNat_of_nonneg hnum]
    · rw [Rat.den_natCast, hden]
  | undefined | null | bool _ | string _ | array _ | object _ => cases h

/-- What the check accepts: an object with these five properties, each valid. -/
theorem assertOrdersQueueJobPayload_ok {value : JsValue} {p : OrdersQueueJobPayload}
    (h : assertOrdersQueueJobPayload value = .ok p) : p.Valid ∧ ∃ fields, value = .object fields ∧
      JsValue.get fields "saleId" = .string p.saleId ∧
      JsValue.get fields "userId" = .string p.userId ∧
      JsValue.get fields "reservationId" = .string p.reservationId ∧
      JsValue.get fields "reservedAtMs" = .number p.reservedAtMs ∧
      JsValue.get fields "requestId" = .string p.requestId := by
  cases value with
  | object fields =>
    unfold assertOrdersQueueJobPayload at h
    simp only [bind, Except.bind, pure, Except.pure, throw, throwThe, MonadExceptOf.throw] at h
    -- one split for each check, the rejecting branch first closed
    split_ifs at h
    split at h
    swap
    · cases h
    next saleId hsale =>
    split at h
    · cases h
    next hs =>
    split at h
    swap
    · cases h
    next userId huser =>
    split at h
    · cases h
    next hu =>
    split at h
    swap
    · cases h
    next reservationId hr =>
    split at h
    swap
    · cases h
    next ms hms =>
    split at h
    swap
    · cases h
    next requestId hreq =>
    obtain rfl := Except.ok.inj h
    obtain ⟨hr, hr'⟩ := Option.filter_eq_some_iff.1 hr
    obtain ⟨hreq, hreq'⟩ := Option.filter_eq_some_iff.1 hreq
    obtain ⟨hms, hms'⟩ := asSafeNat_eq_some hms
    exact ⟨⟨assertSaleId_ok hs, assertUserId_ok hu, hr', hms', hreq'⟩, fields, rfl,
      asString_eq_some hsale, asString_eq_some huser, asString_eq_some hr, hms,
      asString_eq_some hreq⟩
  | undefined | null | bool _ | number _ | string _ | array _ => cases h

/-- The check accepts what a producer built only as it is, and only if every field is valid. -/
theorem assertOrdersQueueJobPayload_toJs_ok {p q : OrdersQueueJobPayload}
    (h : assertOrdersQueueJobPayload p.toJs = .ok q) : p.Valid ∧ q = p := by
  obtain ⟨hv, fields, hfields, hs, hu, hr, hms, hi⟩ := assertOrdersQueueJobPayload_ok h
  obtain rfl := JsValue.object.inj hfields
  have hq : q = p := by
    obtain ⟨saleId, userId, reservationId, reservedAtMs, requestId⟩ := q
    obtain rfl := JsValue.string.inj hs
    obtain rfl := JsValue.string.inj hu
    obtain rfl := JsValue.string.inj hr
    obtain rfl : p.reservedAtMs = reservedAtMs := by exact_mod_cast JsValue.number.inj hms
    obtain rfl := JsValue.string.inj hi
    rfl
  rw [hq] at hv
  exact ⟨hv, hq⟩

theorem buildOrdersJobId_ok {saleId userId id : String}
    (h : buildOrdersJobId saleId userId = .ok id) :
    isUserId userId = true ∧ id = saleId ++ "-" ++ userId := by
  unfold buildOrdersJobId assertSaleId assertUserId at h
  split_ifs at h with hs hu
  · exact ⟨hu, (Except.ok.inj h).symm⟩
  all_goals cases h

end FlashSale
