import FlashSale.Api.Responses
import FlashSale.Worker.Safety

/-!
# What the purchase status says

`getStatus` reads the row of the user first and the buyers set only when there is no row. The set has
the users of the ledger, so the answer is right for every user but one kind: a marker of a released
reservation stands beside an entry of the ledger, as after a second purchase. Then the answer is
that of the marker, until the job of the new reservation promotes the row.
-/

namespace FlashSale

open Redis

namespace System

variable {env : WorkerEnv} {w : System} {u : String}

/-- `PurchaseStatusService.getStatus` with both stores in reach. -/
def getStatus (env : WorkerEnv) (w : System) (userId : String) : PurchaseStatus :=
  purchaseStatus (.ok (w.stores.db.row? userId)) (.ok ((w.sale env).buyers.sismember userId))

/-- The user has an entry in the ledger or a persisted row. -/
def Holds (env : WorkerEnv) (w : System) (u : String) : Prop :=
  (w.ledger env u).isSome = true ∨ ∃ row, w.stores.db.row? u = some row ∧ row.status = .persisted

/-- `getStatus` says whether the user has an entry or a persisted row, and never denies a purchase
that the script would call a second one. -/
structure StatusTruth (env : WorkerEnv) (w : System) (u : String) : Prop where
  purchased : (w.getStatus env u).purchased = true ↔ w.Holds env u
  again : (w.getStatus env u).purchased = false → ∀ fresh t,
    (FlashSale.purchase (w.sale env) u fresh t).1.outcome ≠ .alreadyPurchased

/-- The user has a marker of a released reservation, and an entry in the ledger beside it. -/
def BoughtAgain (env : WorkerEnv) (w : System) (u : String) : Prop :=
  (∃ row, w.stores.db.row? u = some row ∧ row.status = .compensated) ∧ (w.ledger env u).isSome = true

theorem ledger_isSome (env : WorkerEnv) (w : System) (u : String) :
    (w.ledger env u).isSome = (w.sale env).reservations.hexists u := by
  unfold Shared.ledger Hash.hexists
  rw [Option.isSome_map]

/-- Only a user of the two keys is told so. -/
theorem not_alreadyPurchased {s : Sale} (hb : s.buyers.sismember u = false)
    (hr : s.reservations.hexists u = false) (fresh : String) (t : RedisTime) :
    (FlashSale.purchase s u fresh t).1.outcome ≠ .alreadyPurchased := by
  unfold FlashSale.purchase
  rw [hb, hr]
  cases s.config with
  | none => simp
  | some cfg =>
    dsimp only
    split_ifs with h1 h2 h3 h4
    · simp
    · simp
    · cases h3
    · simp
    · simp

theorem getStatus_purchased_iff (h : w.Inv env) :
    ((w.getStatus env u).purchased = true ↔ w.Holds env u) ↔ ¬w.BoughtAgain env u := by
  have hmem : (w.sale env).buyers.sismember u = (w.ledger env u).isSome :=
    (h.members u).trans (ledger_isSome env w u).symm
  unfold getStatus Holds BoughtAgain
  rw [hmem]
  cases hrow : w.stores.db.row? u with
  | none => cases w.ledger env u <;> simp [purchaseStatus, PurchaseStatus.purchased]
  | some row =>
    cases hst : row.status with
    | persisted => simp [purchaseStatus, PurchaseStatus.purchased, hst]
    | compensated => simp [purchaseStatus, PurchaseStatus.purchased, hst]

/-- **The status tells the truth** in every state of every run, about every user without an entry
beside a marker. -/
theorem status_truth_iff (env : WorkerEnv) (time : RedisTime)
    (ledgerBucket buyerBucket hashtext : String → ℕ) (es : List Event) (u : String) :
    let w := (System.empty time ledgerBucket buyerBucket hashtext).run env es
    w.StatusTruth env u ↔ ¬w.BoughtAgain env u := by
  intro w
  have hinv : w.Inv env := ((Ok.empty env False time _ _ _).run es (fun h => h.elim)).inv.1
  constructor
  · intro h
    exact (getStatus_purchased_iff hinv).mp h.purchased
  · intro h
    have hpurchased := (getStatus_purchased_iff hinv).mpr h
    refine ⟨hpurchased, ?_⟩
    intro hfalse
    have hnone : (w.sale env).reservations.hexists u = false := by
      rw [← ledger_isSome]
      by_contra hsome
      rw [hpurchased.mpr (.inl (Bool.eq_true_of_not_eq_false hsome))] at hfalse
      cases hfalse
    exact not_alreadyPurchased ((hinv.members u).trans hnone) hnone

/-- The sweep releases the reservation of Alice and commits the marker, and Alice buys again. -/
def buysAgainRun : List Event :=
  aliceFails ++ List.replicate 14 (.maintain .none) ++
    [.finish, .purchase "alice" bobReservation "req-2"]

/-- Alice is told that she has not purchased; her next purchase would be her second. -/
theorem buysAgainRun_denied :
    ¬(quietSystem.run oneUnitEnv buysAgainRun).StatusTruth oneUnitEnv "alice" := by
  have hstatus : ((quietSystem.run oneUnitEnv buysAgainRun).getStatus oneUnitEnv "alice").purchased =
      false := by decide +kernel
  have hagain : (FlashSale.purchase ((quietSystem.run oneUnitEnv buysAgainRun).sale oneUnitEnv)
      "alice" aliceReservation ⟨1, 500000⟩).1.outcome = .alreadyPurchased := by decide +kernel
  intro h
  exact h.again hstatus _ _ hagain

end System
end FlashSale
