import FlashSale.Lib.JsonText
import FlashSale.Load.Audit

/-!
# The fingerprint of a snapshot

`canonicalFingerprint` is the JSON text of everything a snapshot holds, with the orders and
reservations sorted by their own JSON texts and the buyers and ledger errors by their code units.
JSON texts of finite numbers tell values apart, so sorting by text is a canonical order and two
snapshots have one fingerprint exactly when they differ at most in the order of those four
collections (`canonicalFingerprint_eq_iff`).
-/

namespace FlashSale.Load

open Number

/-- What one collection reads from the API, the worker, Postgres and Redis. -/
structure Snapshot where
  apiReady : Bool
  workerReady : Bool
  queue : QueueCounts
  sale : SaleConfig
  apiSale : SaleConfig
  redisSale : SaleConfig
  postgres : PostgresCounts
  redis : RedisCounts
  orders : List AuditOrder
  buyers : JsSet String
  reservations : JsMap String AuditReservation
  ledgerErrors : List String

/-! ## The text -/

/-- The status as JSON has it. -/
def AuditOrderStatus.text : AuditOrderStatus → String
  | .reserved => "reserved"
  | .persisted => "persisted"
  | .compensated => "compensated"

/-- An order in the fingerprint. -/
def orderItem (order : AuditOrder) : Json :=
  .array [.string order.id, .string order.userId, .string order.status.text,
    .number order.createdAtMs]

/-- A reservation in the fingerprint. -/
def reservationItem (entry : String × AuditReservation) : Json :=
  .array [.string entry.1, .string entry.2.reservationId, .number entry.2.reservedAtMs]

/-- `compare` orders values by their JSON texts. -/
def textUnits (value : Json) : List ℕ := codeUnits value.stringify

/-- Strings are compared by their code units. -/
def stringUnits (s : String) : List ℕ := codeUnits s.toList

/-- The counts in the order of the fingerprint. -/
def QueueCounts.numbers (queue : QueueCounts) : List JsNumber :=
  [queue.waiting, queue.active, queue.delayed, queue.failed]

/-- The counts in the order of the fingerprint. -/
def PostgresCounts.numbers (postgres : PostgresCounts) : List JsNumber :=
  [postgres.totalStock, postgres.persisted, postgres.compensated, postgres.reserved,
    postgres.duplicateUsersGlobal, postgres.duplicateUsersInSale, postgres.outsideWindow]

/-- The counts in the order of the fingerprint. -/
def RedisCounts.numbers (redis : RedisCounts) : List JsNumber :=
  [redis.stock, redis.buyers, redis.reservations, redis.metricsConfirmed]

/-- The numbers of a sale in the order of the fingerprint. -/
def SaleConfig.numbers (sale : SaleConfig) : List JsNumber :=
  [sale.totalStock, sale.startsAtMs, sale.endsAtMs]

/-- A sale in the fingerprint. -/
def saleFingerprint (sale : SaleConfig) : Json :=
  .array ([.string sale.id, .string sale.name] ++ sale.numbers.map .number)

namespace Snapshot

/-- The array whose text is the fingerprint. -/
def canonical (s : Snapshot) : Json :=
  .array [.bool s.apiReady, .bool s.workerReady, .array (s.queue.numbers.map .number),
    saleFingerprint s.sale, saleFingerprint s.apiSale, saleFingerprint s.redisSale,
    .array (s.postgres.numbers.map .number), .array (s.redis.numbers.map .number),
    .array (sortBy textUnits (s.orders.map orderItem)),
    .array ((sortBy stringUnits s.buyers.values).map .string),
    .array (sortBy textUnits (s.reservations.entries.map reservationItem)),
    .array ((sortBy stringUnits s.ledgerErrors).map .string)]

/-- The text two snapshots are compared by. -/
def canonicalFingerprint (s : Snapshot) : List Char := s.canonical.stringify

/-- The numbers of a snapshot. -/
def numbers (s : Snapshot) : List JsNumber :=
  s.queue.numbers ++ s.sale.numbers ++ s.apiSale.numbers ++ s.redisSale.numbers ++
    s.postgres.numbers ++ s.redis.numbers ++ s.orders.map AuditOrder.createdAtMs ++
    s.reservations.values.map AuditReservation.reservedAtMs

/-- No number of the snapshot is infinite or NaN, which JSON writes as `null`. -/
def Finite (s : Snapshot) : Prop := ∀ x ∈ s.numbers, x.IsFinite

/-- The snapshots are equal up to the order of orders, buyers, reservations and ledger errors. -/
structure SameUpToOrder (s t : Snapshot) : Prop where
  apiReady : s.apiReady = t.apiReady
  workerReady : s.workerReady = t.workerReady
  queue : s.queue = t.queue
  sale : s.sale = t.sale
  apiSale : s.apiSale = t.apiSale
  redisSale : s.redisSale = t.redisSale
  postgres : s.postgres = t.postgres
  redis : s.redis = t.redis
  orders : s.orders.Perm t.orders
  buyers : s.buyers.values.Perm t.buyers.values
  reservations : s.reservations.entries.Perm t.reservations.entries
  ledgerErrors : s.ledgerErrors.Perm t.ledgerErrors

/-! ## Finite values -/

theorem finite_numbers {xs : List JsNumber} (h : ∀ x ∈ xs, x.IsFinite) :
    (Json.array (xs.map .number)).Finite := by
  unfold Json.Finite
  rw [Json.finiteItems_iff]
  intro item hitem
  obtain ⟨x, hx, rfl⟩ := List.mem_map.1 hitem
  exact h x hx

theorem finite_strings (xs : List String) : (Json.array (xs.map .string)).Finite := by
  unfold Json.Finite
  rw [Json.finiteItems_iff]
  intro item hitem
  obtain ⟨x, -, rfl⟩ := List.mem_map.1 hitem
  trivial

theorem finite_saleFingerprint {sale : SaleConfig} (h : ∀ x ∈ sale.numbers, x.IsFinite) :
    (saleFingerprint sale).Finite := by
  have := Json.finiteItems_iff.1 (finite_numbers h)
  unfold saleFingerprint Json.Finite
  rw [Json.finiteItems_iff]
  intro item hitem
  rcases List.mem_append.1 hitem with hitem | hitem
  · rcases List.mem_pair.1 hitem with rfl | rfl <;> trivial
  · exact this item hitem

theorem Finite.orderItems {s : Snapshot} (h : s.Finite) :
    ∀ item ∈ s.orders.map orderItem, item.Finite := by
  intro item hitem
  obtain ⟨order, horder, rfl⟩ := List.mem_map.1 hitem
  refine ⟨trivial, trivial, trivial, h order.createdAtMs ?_, trivial⟩
  exact List.mem_append_left _ (List.mem_append_right _ (List.mem_map_of_mem horder))

theorem Finite.reservationItems {s : Snapshot} (h : s.Finite) :
    ∀ item ∈ s.reservations.entries.map reservationItem, item.Finite := by
  intro item hitem
  obtain ⟨entry, hentry, rfl⟩ := List.mem_map.1 hitem
  refine ⟨trivial, trivial, h entry.2.reservedAtMs ?_, trivial⟩
  exact List.mem_append_right _ (List.mem_map_of_mem (List.mem_map_of_mem hentry))

theorem Finite.canonical {s : Snapshot} (h : s.Finite) : s.canonical.Finite := by
  have hnumbers : ∀ {xs : List JsNumber}, xs ⊆ s.numbers → ∀ x ∈ xs, x.IsFinite :=
    fun hsub x hx => h x (hsub hx)
  have hsorted : ∀ {items : List Json}, (∀ item ∈ items, item.Finite) →
      (Json.array (sortBy textUnits items)).Finite := fun hitems =>
    Json.finiteItems_iff.2 fun item hitem => hitems item ((sortBy_perm _ _).mem_iff.1 hitem)
  unfold Snapshot.canonical Json.Finite
  refine ⟨trivial, trivial, finite_numbers (hnumbers ?_), finite_saleFingerprint (hnumbers ?_),
    finite_saleFingerprint (hnumbers ?_), finite_saleFingerprint (hnumbers ?_),
    finite_numbers (hnumbers ?_), finite_numbers (hnumbers ?_), hsorted h.orderItems,
    finite_strings _, hsorted h.reservationItems, finite_strings _, trivial⟩
  all_goals
    intro x hx
    simp only [numbers, List.mem_append]
    simp only [hx, true_or, or_true]

/-! ## Equal fingerprints -/

theorem orderItem_injective : Function.Injective orderItem := by
  rintro ⟨id, userId, status, createdAtMs⟩ ⟨id', userId', status', createdAtMs'⟩ h
  simp only [orderItem, Json.array.injEq, List.cons.injEq, Json.string.injEq, Json.number.injEq,
    and_true] at h
  obtain ⟨rfl, rfl, hstatus, rfl⟩ := h
  have : status = status' := by
    cases status <;> cases status' <;> first | rfl | exact absurd hstatus (by decide)
  rw [this]

theorem reservationItem_injective : Function.Injective reservationItem := by
  rintro ⟨userId, reservationId, reservedAtMs⟩ ⟨userId', reservationId', reservedAtMs'⟩ h
  simp only [reservationItem, Json.array.injEq, List.cons.injEq, Json.string.injEq,
    Json.number.injEq, and_true] at h
  obtain ⟨rfl, rfl, rfl⟩ := h
  rfl

theorem saleFingerprint_injective : Function.Injective saleFingerprint := by
  rintro ⟨id, name, totalStock, startsAtMs, endsAtMs⟩ sale h
  cases sale
  simp only [saleFingerprint, SaleConfig.numbers, List.map_cons, List.map_nil, List.cons_append,
    List.nil_append, Json.array.injEq, List.cons.injEq, Json.string.injEq, Json.number.injEq,
    and_true] at h
  obtain ⟨rfl, rfl, rfl, rfl, rfl⟩ := h
  rfl

theorem queue_numbers_injective : Function.Injective QueueCounts.numbers := by
  rintro ⟨waiting, active, delayed, failed⟩ q h
  cases q
  simpa [QueueCounts.numbers] using h

theorem postgres_numbers_injective : Function.Injective PostgresCounts.numbers := by
  rintro ⟨totalStock, persisted, compensated, reserved, duplicateUsersGlobal,
    duplicateUsersInSale, outsideWindow⟩ p h
  cases p
  simpa [PostgresCounts.numbers] using h

theorem redis_numbers_injective : Function.Injective RedisCounts.numbers := by
  rintro ⟨stock, buyers, reservations, metricsConfirmed⟩ r h
  cases r
  simpa [RedisCounts.numbers] using h

/-- Items sorted by their texts are one list exactly when they are the same items. -/
theorem sorted_items_eq_iff {α : Type} {item : α → Json} (hinj : Function.Injective item)
    {l l' : List α} (hl : ∀ v ∈ l.map item, v.Finite) (hl' : ∀ v ∈ l'.map item, v.Finite) :
    sortBy textUnits (l.map item) = sortBy textUnits (l'.map item) ↔ l.Perm l' := by
  rw [sortBy_eq_iff, List.map_perm_map_iff hinj]
  intro a ha b hb h
  exact Json.stringify_injective (hl a ha) (hl' b hb) (codeUnits_injective h)

theorem sorted_strings_eq_iff {l l' : List String} :
    (sortBy stringUnits l).map Json.string = (sortBy stringUnits l').map Json.string ↔
      l.Perm l' := by
  rw [(List.map_injective_iff.2 fun _ _ => Json.string.inj).eq_iff, sortBy_eq_iff]
  intro a _ b _ h
  exact String.toList_inj.1 (codeUnits_injective h)

/-- **Fingerprints are complete and blind to order.** -/
theorem fingerprint_eq_iff {s t : Snapshot} (hs : s.Finite) (ht : t.Finite) :
    s.canonicalFingerprint = t.canonicalFingerprint ↔ s.SameUpToOrder t := by
  have horders := sorted_items_eq_iff orderItem_injective hs.orderItems ht.orderItems
  have hreservations := sorted_items_eq_iff reservationItem_injective hs.reservationItems
    ht.reservationItems
  constructor
  · intro h
    have hnumbers : Function.Injective (List.map Json.number) :=
      List.map_injective_iff.2 fun _ _ => Json.number.inj
    have hcanonical := Json.stringify_injective hs.canonical ht.canonical h
    simp only [Snapshot.canonical, Json.array.injEq, List.cons.injEq, Json.bool.injEq,
      and_true] at hcanonical
    obtain ⟨hapi, hworker, hqueue, hsale, hapiSale, hredisSale, hpostgres, hredis, ho, hb, hr, hl⟩ :=
      hcanonical
    refine ⟨hapi, hworker, ?_, saleFingerprint_injective hsale, saleFingerprint_injective hapiSale,
      saleFingerprint_injective hredisSale, ?_, ?_, horders.1 ho, sorted_strings_eq_iff.1 hb,
      hreservations.1 hr, sorted_strings_eq_iff.1 hl⟩
    · exact queue_numbers_injective (hnumbers hqueue)
    · exact postgres_numbers_injective (hnumbers hpostgres)
    · exact redis_numbers_injective (hnumbers hredis)
  · rintro ⟨hapi, hworker, hqueue, hsale, hapiSale, hredisSale, hpostgres, hredis, ho, hb, hr, hl⟩
    unfold canonicalFingerprint Snapshot.canonical
    rw [hapi, hworker, hqueue, hsale, hapiSale, hredisSale, hpostgres, hredis, horders.2 ho,
      hreservations.2 hr, sorted_strings_eq_iff.2 hb, sorted_strings_eq_iff.2 hl]

end Snapshot

end FlashSale.Load
