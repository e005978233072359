import FlashSale.Shared.Queue

/-!
# The sale state machine of `@flash/shared`

`deriveSaleState` is the presentational state of a sale, a function of the clock, the window and
the stock. It refuses an empty or reversed window.
-/

namespace FlashSale

inductive SaleState where
  | upcoming
  | active
  | soldOut
  | ended
  deriving DecidableEq, Repr

/-- `deriveSaleState`: `upcoming` and `ended` beat `sold_out`. -/
def deriveSaleState (nowMs startsAtMs endsAtMs stockRemaining : ℤ) : Except Failure SaleState :=
  if endsAtMs ≤ startsAtMs then
    .error (.rangeError (s!"sale-state: endsAtMs ({endsAtMs}) must be strictly greater than " ++
      s!"startsAtMs ({startsAtMs})"))
  else if nowMs < startsAtMs then .ok .upcoming
  else if nowMs ≥ endsAtMs then .ok .ended
  else if max stockRemaining 0 ≤ 0 then .ok .soldOut
  else .ok .active

end FlashSale
