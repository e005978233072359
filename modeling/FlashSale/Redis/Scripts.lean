import FlashSale.Lib.Number
import FlashSale.Lib.Redis
import FlashSale.Lib.Text

/-!
# The Lua scripts of one sale

`Sale` holds the four keys of a sale and each definition below is one script, an atomic step on
them: the reply and the keys afterwards. Numbers in keys are canonical decimal texts, so they are
kept as integers and the text comparisons of `seed.lua` become comparisons of integers; the
ledger keeps its texts, since three scripts take them apart.

`DECR` and `INCR` count exactly, but what a script reads with `tonumber`, computes or returns is a
double (`Number.ofInt`). Instants are exact either way, for `Date.parse` gives at most 8.64e15.

Every script is followed by the lemma that says what it can do.
-/

namespace FlashSale

open Redis

/-! ## Keys -/

/-- The hash `sale:<id>:config`. -/
structure SaleConfig where
  saleId : String
  name : String
  startsAt : String
  endsAt : String
  startsAtMs : ℤ
  endsAtMs : ℤ
  totalStock : ℤ
  deriving DecidableEq, Repr

/-- The keys `config`, `stock`, `buyers` and `reservations` of one sale. -/
structure Sale where
  config : Option SaleConfig
  stock : Option ℤ
  buyers : KeySet
  reservations : Hash

/-- No key exists. -/
def Sale.empty : Sale := ⟨none, none, ∅, ∅⟩

/-- A reply of `TIME`. -/
structure RedisTime where
  seconds : ℕ
  microseconds : ℕ

/-- The milliseconds every script derives from `TIME`. -/
def RedisTime.nowMs (t : RedisTime) : ℕ := t.seconds * 1000 + t.microseconds / 1000

/-- The ledger value `<reservationId>:<text>`. -/
def ledgerValue (reservationId text : String) : String := reservationId ++ ":" ++ text

/-- The identity that `compensate.lua` and `compare-restore-reservation.lua` read off a ledger
value: what stands before the first colon, or the whole value. -/
def ledgerIdentity (value : String) : String := Text.beforeFirst ':' value

theorem ledgerIdentity_ledgerValue {reservationId : String} (text : String)
    (h : ':' ∉ reservationId.toList) : ledgerIdentity (ledgerValue reservationId text) =
      reservationId := by
  have hc : (":" : String) = String.singleton ':' := by decide
  unfold ledgerIdentity ledgerValue
  rw [hc]
  exact Text.beforeFirst_append h

/-! ## purchase.lua -/

inductive PurchaseOutcome where
  | confirmed
  | alreadyPurchased
  | soldOut
  | saleNotStarted
  | saleEnded
  | notInitialized
  deriving DecidableEq, Repr

structure PurchaseReply where
  outcome : PurchaseOutcome
  stockRemaining : ℤ
  nowMs : ℕ
  reservationId : String
  deriving DecidableEq, Repr

/-- `purchase.lua`: initialisation, window, membership and stock, in this order. -/
def purchase (s : Sale) (userId reservationId : String) (t : RedisTime) : PurchaseReply × Sale :=
  match s.config with
  | none => (⟨.notInitialized, -1, t.nowMs, ""⟩, s)
  | some cfg =>
    let stock := max (Number.ofInt (s.stock.getD 0)) 0
    if (t.nowMs : ℤ) < cfg.startsAtMs then (⟨.saleNotStarted, stock, t.nowMs, ""⟩, s)
    else if (t.nowMs : ℤ) ≥ cfg.endsAtMs then (⟨.saleEnded, stock, t.nowMs, ""⟩, s)
    else if s.buyers.sismember userId || s.reservations.hexists userId then
      (⟨.alreadyPurchased, stock, t.nowMs, ""⟩, { s with buyers := s.buyers.sadd userId })
    else if stock ≤ 0 then (⟨.soldOut, 0, t.nowMs, ""⟩, s)
    else
      let remaining := s.stock.getD 0 - 1
      (⟨.confirmed, Number.ofInt remaining, t.nowMs, reservationId⟩,
        { s with
          stock := some remaining
          buyers := s.buyers.sadd userId
          reservations := s.reservations.hset userId
            (ledgerValue reservationId (Text.luaTostring t.nowMs)) })

/-- A confirmed purchase found the sale open, the user unknown and a unit left, and wrote the
entry `<reservationId>:<nowMs>`. -/
structure ConfirmedPurchase (s : Sale) (userId reservationId : String) (t : RedisTime)
    (s' : Sale) : Prop where
  window : ∃ cfg, s.config = some cfg ∧ cfg.startsAtMs ≤ t.nowMs ∧ (t.nowMs : ℤ) < cfg.endsAtMs
  buyer : s.buyers.sismember userId = false
  ledger : s.reservations.hget userId = none
  unit : 0 < s.stock.getD 0
  keys : s' = { s with
    stock := some (s.stock.getD 0 - 1)
    buyers := s.buyers.sadd userId
    reservations := s.reservations.hset userId
      (ledgerValue reservationId (Text.luaTostring t.nowMs)) }

/-- A purchase is confirmed, or leaves the keys alone up to the membership it re-adds for a user
it already knows. -/
theorem purchase_cases (s : Sale) (userId reservationId : String) (t : RedisTime) :
    ((purchase s userId reservationId t).1 =
        ⟨.confirmed, Number.ofInt (s.stock.getD 0 - 1), t.nowMs, reservationId⟩ ∧
      ConfirmedPurchase s userId reservationId t (purchase s userId reservationId t).2) ∨
    ((purchase s userId reservationId t).1.outcome ≠ .confirmed ∧
      ((purchase s userId reservationId t).2 = s ∨
        (s.buyers.sismember userId || s.reservations.hexists userId) = true ∧
          (purchase s userId reservationId t).2 = { s with buyers := s.buyers.sadd userId })) := by
  unfold purchase
  cases hc : s.config with
  | none => exact .inr ⟨by simp, .inl rfl⟩
  | some cfg =>
    dsimp only
    split_ifs with h1 h2 h3 h4
    · exact .inr ⟨by simp, .inl rfl⟩
    · exact .inr ⟨by simp, .inl rfl⟩
    · exact .inr ⟨by simp, .inr ⟨h3, rfl⟩⟩
    · exact .inr ⟨by simp, .inl rfl⟩
    · simp only [Bool.or_eq_true, not_or, Bool.not_eq_true] at h3
      have hunit : 0 < s.stock.getD 0 := by
        by_contra hle
        exact h4 (max_le (Number.ofInt_nonpos (not_lt.1 hle)) le_rfl)
      refine .inl ⟨rfl, ⟨cfg, hc, by omega, by omega⟩, h3.1, ?_, hunit, by rw [hc]⟩
      simpa [Hash.hexists] using h3.2

/-! ## compensate.lua -/

inductive CompensateOutcome where
  | compensated
  | compensatedCapped
  | noop
  deriving DecidableEq, Repr

structure CompensateReply where
  outcome : CompensateOutcome
  stockRemaining : ℤ
  deriving DecidableEq, Repr

/-- `compensate.lua`: the ledger entry must carry the presented identity; the entry and the
membership go, and the unit returns unless the stock is at its cap. -/
def compensate (s : Sale) (userId reservationId : String) : CompensateReply × Sale :=
  let stock := Number.ofInt (s.stock.getD 0)
  match s.reservations.hget userId with
  | none => (⟨.noop, stock⟩, s)
  | some current =>
    if ledgerIdentity current ≠ reservationId then (⟨.noop, stock⟩, s)
    else
      let removed := s.buyers.sismember userId
      let s := { s with
        reservations := s.reservations.hdel userId
        buyers := s.buyers.srem userId }
      if !removed then (⟨.noop, stock⟩, s)
      else if s.config.any (fun cfg => decide (Number.ofInt cfg.totalStock ≤ stock)) then
        (⟨.compensatedCapped, stock⟩, s)
      else
        let remaining := s.stock.getD 0 + 1
        (⟨.compensated, Number.ofInt remaining⟩, { s with stock := some remaining })

/-- The keys after the entry and the membership of `userId` are removed. -/
def Sale.drop (s : Sale) (userId : String) : Sale :=
  { s with reservations := s.reservations.hdel userId, buyers := s.buyers.srem userId }

/-- A compensation is refused and changes nothing, or removes the entry that carries its identity;
then it is a `NOOP` for a user outside the buyers set, capped at the total, or returns a unit. -/
theorem compensate_cases (s : Sale) (userId reservationId : String) :
    (compensate s userId reservationId = (⟨.noop, Number.ofInt (s.stock.getD 0)⟩, s) ∧
      ∀ v, s.reservations.hget userId = some v → ledgerIdentity v ≠ reservationId) ∨
    ∃ v, s.reservations.hget userId = some v ∧ ledgerIdentity v = reservationId ∧
      ((s.buyers.sismember userId = false ∧
          compensate s userId reservationId =
            (⟨.noop, Number.ofInt (s.stock.getD 0)⟩, s.drop userId)) ∨
        (s.buyers.sismember userId = true ∧ (∃ cfg, s.config = some cfg ∧
            Number.ofInt cfg.totalStock ≤ Number.ofInt (s.stock.getD 0)) ∧
          compensate s userId reservationId =
            (⟨.compensatedCapped, Number.ofInt (s.stock.getD 0)⟩, s.drop userId)) ∨
        (s.buyers.sismember userId = true ∧ (∀ cfg, s.config = some cfg →
            Number.ofInt (s.stock.getD 0) < Number.ofInt cfg.totalStock) ∧
          compensate s userId reservationId =
            (⟨.compensated, Number.ofInt (s.stock.getD 0 + 1)⟩,
              { s.drop userId with stock := some (s.stock.getD 0 + 1) }))) := by
  unfold compensate
  cases hg : s.reservations.hget userId with
  | none => exact .inl ⟨rfl, by simp⟩
  | some v =>
    dsimp only
    by_cases hid : ledgerIdentity v = reservationId
    · refine .inr ⟨v, rfl, hid, ?_⟩
      rw [if_neg (by simpa using hid)]
      cases hb : s.buyers.sismember userId with
      | false => exact .inl ⟨rfl, rfl⟩
      | true =>
        refine .inr ?_
        cases hc : s.config with
        | none => exact .inr ⟨rfl, by simp, by simp [Sale.drop, hc]⟩
        | some cfg =>
          by_cases hcap : Number.ofInt cfg.totalStock ≤ Number.ofInt (s.stock.getD 0)
          · exact .inl ⟨rfl, ⟨cfg, rfl, hcap⟩, by simp [Sale.drop, hc, hcap]⟩
          · refine .inr ⟨rfl, ?_, by simp [Sale.drop, hc, hcap]⟩
            rintro _ ⟨⟩
            omega
    · rw [if_pos hid]
      refine .inl ⟨rfl, ?_⟩
      rintro _ ⟨⟩
      exact hid

/-! ## compare-restore-reservation.lua -/

inductive CompareRestoreOutcome where
  | restored
  | alreadyMatched
  | conflict
  deriving DecidableEq, Repr

/-- `compare-restore-reservation.lua` with the arguments `userId`, `reservationId` and the
canonical text of `reservedAtMs`; the reply carries the ledger value on file afterwards. -/
def compareRestoreReservation (s : Sale) (userId reservationId : String) (reservedAtMs : ℕ) :
    (CompareRestoreOutcome × String) × Sale :=
  match s.reservations.hget userId with
  | none =>
    let candidate := ledgerValue reservationId (toString reservedAtMs)
    ((.restored, candidate),
      { s with
        reservations := s.reservations.hset userId candidate
        buyers := s.buyers.sadd userId })
  | some current =>
    if ledgerIdentity current = reservationId then
      ((.alreadyMatched, current), { s with buyers := s.buyers.sadd userId })
    else ((.conflict, current), s)

/-- The keys after `compare-restore-reservation.lua` wrote a missing entry. -/
def Sale.restore (s : Sale) (userId reservationId : String) (reservedAtMs : ℕ) : Sale :=
  { s with
    reservations := s.reservations.hset userId (ledgerValue reservationId (toString reservedAtMs))
    buyers := s.buyers.sadd userId }

theorem compareRestoreReservation_cases (s : Sale) (userId reservationId : String)
    (reservedAtMs : ℕ) :
    (s.reservations.hget userId = none ∧
      compareRestoreReservation s userId reservationId reservedAtMs =
        ((.restored, ledgerValue reservationId (toString reservedAtMs)),
          s.restore userId reservationId reservedAtMs)) ∨
    ∃ v, s.reservations.hget userId = some v ∧
      ((ledgerIdentity v = reservationId ∧
          compareRestoreReservation s userId reservationId reservedAtMs =
            ((.alreadyMatched, v), { s with buyers := s.buyers.sadd userId })) ∨
        (ledgerIdentity v ≠ reservationId ∧
          compareRestoreReservation s userId reservationId reservedAtMs = ((.conflict, v), s))) := by
  unfold compareRestoreReservation
  cases hg : s.reservations.hget userId with
  | none => exact .inl ⟨rfl, rfl⟩
  | some v =>
    refine .inr ⟨v, rfl, ?_⟩
    by_cases hid : ledgerIdentity v = reservationId
    · exact .inl ⟨hid, if_pos hid⟩
    · exact .inr ⟨hid, if_neg hid⟩

/-- A conflict is reported for another identity. -/
theorem compareRestoreReservation_conflict {s : Sale} {userId reservationId : String}
    {reservedAtMs : ℕ}
    (h : (compareRestoreReservation s userId reservationId reservedAtMs).1.1 = .conflict) :
    ledgerIdentity (compareRestoreReservation s userId reservationId reservedAtMs).1.2 ≠
      reservationId := by
  rcases compareRestoreReservation_cases s userId reservationId reservedAtMs with
    ⟨-, e⟩ | ⟨v, -, ⟨-, e⟩ | ⟨hne, e⟩⟩
  · rw [e] at h; cases h
  · rw [e] at h; cases h
  · rw [e]; exact hne

/-- The reply carries the value on file afterwards. -/
theorem hget_compareRestoreReservation (s : Sale) (userId reservationId : String)
    (reservedAtMs : ℕ) :
    (compareRestoreReservation s userId reservationId reservedAtMs).2.reservations.hget userId =
      some (compareRestoreReservation s userId reservationId reservedAtMs).1.2 := by
  rcases compareRestoreReservation_cases s userId reservationId reservedAtMs with
    ⟨-, e⟩ | ⟨v, hv, ⟨-, e⟩ | ⟨-, e⟩⟩
  · rw [e]; exact Hash.hget_hset_self
  · rw [e]; exact hv
  · rw [e]; exact hv

/-! ## reconcile-membership.lua -/

inductive Membership where
  | present
  | absent
  deriving DecidableEq, Repr

/-- `reconcile-membership.lua`. -/
def reconcileMembership (s : Sale) (userId : String) : Membership × Sale :=
  if s.reservations.hexists userId then
    (.present, { s with buyers := s.buyers.sadd userId })
  else (.absent, { s with buyers := s.buyers.srem userId })

theorem reconcileMembership_keys (x : Sale) (u : String) :
    (reconcileMembership x u).2.reservations = x.reservations ∧
      (reconcileMembership x u).2.config = x.config := by
  unfold reconcileMembership
  split_ifs
  · exact ⟨rfl, rfl⟩
  · exact ⟨rfl, rfl⟩

/-- `reconcile-membership.lua` finds the membership right. -/
theorem sismember_reconcileMembership {x : Sale}
    (h : ∀ u, x.buyers.sismember u = x.reservations.hexists u) (u : String) :
    ∀ v, (reconcileMembership x u).2.buyers.sismember v = x.buyers.sismember v := by
  intro v
  unfold reconcileMembership
  split_ifs with hu
  · rw [KeySet.sadd_of_sismember (by rw [h]; exact hu)]
  · rw [KeySet.sismember_srem]
    by_cases e : v = u
    · subst e
      rw [h]
      simpa using hu
    · simp [e]

/-! ## reconcile-state.lua -/

inductive ReconcileStateOutcome where
  | reconciled
  | notInitialized
  | overcommitted
  deriving DecidableEq, Repr

structure ReconcileStateReply where
  outcome : ReconcileStateOutcome
  previousStock : ℤ
  newStock : ℤ
  reservationCount : ℤ
  totalStock : ℤ
  deriving DecidableEq, Repr

/-- `reconcile-state.lua`: stock from the ledger, unless the ledger exceeds the total. -/
def reconcileState (s : Sale) : ReconcileStateReply × Sale :=
  match s.config with
  | none => (⟨.notInitialized, -1, -1, 0, -1⟩, s)
  | some cfg =>
    let total := Number.ofInt cfg.totalStock
    let count := Number.ofInt s.reservations.hlen
    let previous := Number.ofInt (s.stock.getD (-1))
    if total < 0 ∨ total < count then (⟨.overcommitted, previous, previous, count, total⟩, s)
    else
      let desired := Number.ofInt (total - count)
      (⟨.reconciled, previous, desired, count, total⟩, { s with stock := some desired })

/-- With a safe total `reconcile-state.lua` compares and subtracts exactly. -/
theorem reconcileState_of_safe {s : Sale} {cfg : SaleConfig} (hc : s.config = some cfg)
    (h0 : 0 ≤ cfg.totalStock) (hsafe : cfg.totalStock ≤ Number.MAX_SAFE_INTEGER) :
    reconcileState s = if cfg.totalStock < s.reservations.hlen then
      (⟨.overcommitted, Number.ofInt (s.stock.getD (-1)), Number.ofInt (s.stock.getD (-1)),
        Number.ofInt s.reservations.hlen, cfg.totalStock⟩, s)
    else
      (⟨.reconciled, Number.ofInt (s.stock.getD (-1)), cfg.totalStock - s.reservations.hlen,
        s.reservations.hlen, cfg.totalStock⟩,
        { s with stock := some (cfg.totalStock - s.reservations.hlen) }) := by
  have htotal : Number.ofInt cfg.totalStock = cfg.totalStock :=
    Number.ofInt_of_nonneg h0 hsafe
  have hcount := Number.ofInt_le_iff (n := (s.reservations.hlen : ℤ)) (by omega) hsafe
  unfold reconcileState
  rw [hc]
  dsimp only
  rw [htotal]
  by_cases hover : cfg.totalStock < s.reservations.hlen
  · rw [if_pos (.inr (by omega)), if_pos hover]
  · have hexact : Number.ofInt s.reservations.hlen = s.reservations.hlen :=
      Number.ofInt_of_nonneg (by omega) (by omega)
    have hdesired := Number.ofInt_of_nonneg (n := cfg.totalStock - s.reservations.hlen) (by omega)
      (by omega)
    rw [if_neg (by omega), if_neg hover, hexact, hdesired]

theorem reconcileState_keys (x : Sale) :
    (reconcileState x).2.reservations = x.reservations ∧
      (reconcileState x).2.config = x.config ∧ (reconcileState x).2.buyers = x.buyers := by
  unfold reconcileState
  cases hc : x.config with
  | none => exact ⟨rfl, hc, rfl⟩
  | some cfg =>
    dsimp only
    split_ifs
    · exact ⟨rfl, hc, rfl⟩
    · exact ⟨rfl, rfl, rfl⟩

/-! ## seed.lua -/

inductive SeedOutcome where
  | seeded
  | alreadySeeded
  | configDrift
  | stockMissing
  deriving DecidableEq, Repr

structure SeedReply where
  outcome : SeedOutcome
  stockRemaining : ℤ
  totalStock : ℤ
  startsAtMs : ℤ
  endsAtMs : ℤ
  deriving DecidableEq, Repr

/-- `seed.lua`: writes the configuration and the stock only when no configuration exists. -/
def seed (s : Sale) (cfg : SaleConfig) (stockRemaining : ℤ) : SeedReply × Sale :=
  match s.config with
  | some cur =>
    let total := Number.ofInt cur.totalStock
    match s.stock with
    | none => (⟨.stockMissing, -1, total, cur.startsAtMs, cur.endsAtMs⟩, s)
    | some stock =>
      if cur.startsAtMs ≠ cfg.startsAtMs ∨ cur.endsAtMs ≠ cfg.endsAtMs ∨
          cur.totalStock ≠ cfg.totalStock then
        (⟨.configDrift, Number.ofInt stock, total, cur.startsAtMs, cur.endsAtMs⟩, s)
      else (⟨.alreadySeeded, Number.ofInt stock, total, cur.startsAtMs, cur.endsAtMs⟩, s)
  | none =>
    (⟨.seeded, Number.ofInt stockRemaining, Number.ofInt cfg.totalStock, cfg.startsAtMs,
        cfg.endsAtMs⟩,
      { s with config := some cfg, stock := some stockRemaining })

/-- `seed.lua` never touches an existing configuration. -/
theorem seed_cases (s : Sale) (cfg : SaleConfig) (stockRemaining : ℤ) :
    (s.config = none ∧ (seed s cfg stockRemaining).1.outcome = .seeded ∧
      (seed s cfg stockRemaining).2 = { s with config := some cfg, stock := some stockRemaining }) ∨
    (s.config.isSome ∧ (seed s cfg stockRemaining).1.outcome ≠ .seeded ∧
      (seed s cfg stockRemaining).2 = s) := by
  unfold seed
  cases hc : s.config with
  | none => exact .inl ⟨rfl, rfl, rfl⟩
  | some cur =>
    refine .inr ⟨rfl, ?_⟩
    cases hs : s.stock with
    | none => exact ⟨by simp, rfl⟩
    | some stock =>
      dsimp only
      split_ifs with h
      · exact ⟨by simp, rfl⟩
      · exact ⟨by simp, rfl⟩

/-! ## status.lua and inspect-reservation-membership.lua -/

/-- The snapshot `status.lua` returns for an initialised sale, its total as a double. -/
structure StatusReply where
  nowMs : ℕ
  stockRemaining : ℤ
  config : Option SaleConfig
  deriving DecidableEq, Repr

/-- `status.lua`; it writes nothing. -/
def statusScript (s : Sale) (t : RedisTime) : StatusReply :=
  match s.config with
  | none => ⟨t.nowMs, -1, none⟩
  | some cfg => ⟨t.nowMs, Number.ofInt (s.stock.getD (-1)),
      some { cfg with totalStock := Number.ofInt cfg.totalStock }⟩

inductive MembershipInspection where
  | both
  | neither
  | buyerOnly
  | reservationOnly
  deriving DecidableEq, Repr

/-- `inspect-reservation-membership.lua`; it writes nothing. -/
def inspectMembership (s : Sale) (userId : String) : MembershipInspection × String :=
  match s.buyers.sismember userId, s.reservations.hget userId with
  | true, some reservation => (.both, reservation)
  | false, none => (.neither, "")
  | true, none => (.buyerOnly, "")
  | false, some reservation => (.reservationOnly, reservation)

/-- The reservation an inspection returns is the ledger value. -/
theorem inspectMembership_value {sale : Sale} {u v : String}
    (h : (inspectMembership sale u).2 = v) (hv : v ≠ "") : sale.reservations.hget u = some v := by
  unfold inspectMembership at h
  cases hb : sale.buyers.sismember u <;> cases hr : sale.reservations.hget u <;>
    simp only [hb, hr] at h
  · exact absurd h.symm hv
  · rw [h]
  · exact absurd h.symm hv
  · rw [h]

theorem inspectMembership_ne_buyerOnly {sale : Sale} {u : String}
    (h : sale.buyers.sismember u = sale.reservations.hexists u) :
    (inspectMembership sale u).1 ≠ .buyerOnly := by
  unfold Hash.hexists at h
  unfold inspectMembership
  cases hr : sale.reservations.hget u with
  | none =>
    rw [hr] at h
    rw [show sale.buyers.sismember u = false from h]
    simp
  | some v =>
    rw [hr] at h
    rw [show sale.buyers.sismember u = true from h]
    simp

theorem inspectMembership_buyerOnly {sale : Sale} {u : String}
    (h : (inspectMembership sale u).1 = .buyerOnly) : sale.reservations.hget u = none := by
  unfold inspectMembership at h
  cases hb : sale.buyers.sismember u <;> cases hr : sale.reservations.hget u <;>
    simp only [hb, hr] at h
  · rfl
  · cases h
  · rfl
  · cases h

end FlashSale
