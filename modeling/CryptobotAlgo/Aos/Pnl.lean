import CryptobotAlgo.Aos.Types
import Mathlib.Algebra.Order.Field.Basic

/-!
# Realized and unrealized profit

The calculators and the storages that a position strategy reports to.  `Price` and `Qty` are one
type `K`, an ordered field: the arithmetic is exact.  Division by zero, which is an infinity or a
NaN for `double`, gives `0` here.
-/

namespace CryptobotAlgo.Aos

/-- An exchange and one of its trading pairs. -/
abbrev Key := ExchangeId × TradingPair

/-- What a strategy calls on the storage of realized profit. -/
class PnlRealizedStorageInterface (R : Type) (K : outParam Type) where
  fixProfit : R → ExchangeId → TradingPair → (avgPrice netQty price qty : K) → R × K

/-- What a strategy calls on the storage of unrealized profit. -/
class PnlUnRealizedStorageInterface (U : Type) (K : outParam Type) where
  updatePosition : U → ExchangeId → TradingPair → (avgPrice netQty : K) → U

export PnlRealizedStorageInterface (fixProfit)
export PnlUnRealizedStorageInterface (updatePosition)

/-- The average price and the net quantity of a position. -/
structure PositionInfo (K : Type) where
  avgPrice : K
  netQty : K
  deriving DecidableEq, Repr

/-- The best prices. -/
structure BBO (K : Type) where
  bestBid : K
  bestAsk : K
  deriving DecidableEq, Repr

/-- `RealizedPnlStorageDefault`. -/
structure RealizedPnlStorageDefault (K : Type) where
  realizedPnl : Key → Option K := fun _ => none

/-- `NetUnRealizedPnlStorageDefault`. -/
structure NetUnRealizedPnlStorageDefault (K : Type) where
  positionInfo : Key → Option (PositionInfo K) := fun _ => none
  bbo : Key → Option (BBO K) := fun _ => none
  unrealizedPnl : Key → Option K := fun _ => none

/-- `HedgedUnRealizedPnlStorageDefault`. -/
structure HedgedUnRealizedPnlStorageDefault (K : Type) where
  longPositionInfo : Key → Option (PositionInfo K) := fun _ => none
  shortPositionInfo : Key → Option (PositionInfo K) := fun _ => none
  bbo : Key → Option (BBO K) := fun _ => none
  unrealizedPnl : Key → Option K := fun _ => none

/-- `map.try_emplace(key, value)`: nothing happens where there is an entry. -/
def tryEmplace {κ α : Type} [DecidableEq κ] (map : κ → Option α) (key : κ) (value : α) :
    κ → Option α :=
  match map key with
  | some _ => map
  | none => Function.update map key (some value)

variable {K : Type} [Field K] [LinearOrder K]

/-- `RealizedPnlCalculatorDefault::Calculate`. -/
def RealizedPnlCalculatorDefault.calculate (avgPrice netQty price qty : K) : K :=
  let absQty := |qty|
  let minQty := min |netQty| absQty
  let minQty := if qty < 0 then -minQty else minQty
  minQty * (price - avgPrice)

/-- `UnRealizedPnlCalculatorDefault::Calculate`. -/
def UnRealizedPnlCalculatorDefault.calculate (avgPrice netQty bid ask : K) : K :=
  let absQty := if 0 < netQty then netQty else -netQty
  let marketPrice := if 0 < netQty then bid else ask
  let priceDiff := if 0 < netQty then marketPrice - avgPrice else avgPrice - marketPrice
  priceDiff * absQty

/-- `FixProfit`: the profit is added to what is stored. -/
def RealizedPnlStorageDefault.fixProfit (s : RealizedPnlStorageDefault K) (exchange : ExchangeId)
    (tradingPair : TradingPair) (avgPrice netQty price qty : K) :
    RealizedPnlStorageDefault K × K :=
  let pnl := RealizedPnlCalculatorDefault.calculate avgPrice netQty price qty
  let key := (exchange, tradingPair)
  let oldPnl := (s.realizedPnl key).getD 0
  ({ realizedPnl := Function.update s.realizedPnl key (some (oldPnl + pnl)) }, pnl)

/-- `GetRealizedPnl`. -/
def RealizedPnlStorageDefault.getRealizedPnl (s : RealizedPnlStorageDefault K)
    (exchange : ExchangeId) (tradingPair : TradingPair) : Bool × K :=
  match s.realizedPnl (exchange, tradingPair) with
  | none => (false, 0)
  | some pnl => (true, pnl)

/-! ### The storage of the net mode -/

/-- `UpdatePosition`: the position is stored, and its profit if the best prices are known. -/
def NetUnRealizedPnlStorageDefault.updatePosition (s : NetUnRealizedPnlStorageDefault K)
    (exchange : ExchangeId) (tradingPair : TradingPair) (avgPrice netQty : K) :
    NetUnRealizedPnlStorageDefault K :=
  let key := (exchange, tradingPair)
  let s := { s with positionInfo := Function.update s.positionInfo key (some { avgPrice, netQty }) }
  match s.bbo key with
  | some bbo =>
    let pnl := UnRealizedPnlCalculatorDefault.calculate avgPrice netQty bbo.bestBid bbo.bestAsk
    { s with unrealizedPnl := Function.update s.unrealizedPnl key (some pnl) }
  | none => s

/-- `UpdateBBO`: the first prices of a key are stored; the profit is computed with the new ones. -/
def NetUnRealizedPnlStorageDefault.updateBBO (s : NetUnRealizedPnlStorageDefault K)
    (exchange : ExchangeId) (tradingPair : TradingPair) (priceBid priceAsk : K) :
    NetUnRealizedPnlStorageDefault K :=
  let key := (exchange, tradingPair)
  let s := { s with bbo := tryEmplace s.bbo key { bestBid := priceBid, bestAsk := priceAsk } }
  match s.positionInfo key with
  | some pos =>
    let pnl := UnRealizedPnlCalculatorDefault.calculate pos.avgPrice pos.netQty priceBid priceAsk
    { s with unrealizedPnl := Function.update s.unrealizedPnl key (some pnl) }
  | none => s

/-- `GetUnRealizedPnl`. -/
def NetUnRealizedPnlStorageDefault.getUnRealizedPnl (s : NetUnRealizedPnlStorageDefault K)
    (exchange : ExchangeId) (tradingPair : TradingPair) : Bool × K :=
  match s.unrealizedPnl (exchange, tradingPair) with
  | none => (false, 0)
  | some pnl => (true, pnl)

/-! ### The storage of the hedged mode -/

namespace HedgedUnRealizedPnlStorageDefault

/-- What a position adds to the profit of its key: nothing if it is not known. -/
def contribution (info : Option (PositionInfo K)) (bid ask : K) : K :=
  match info with
  | some pos => UnRealizedPnlCalculatorDefault.calculate pos.avgPrice pos.netQty bid ask
  | none => 0

/-- What both updates do once the prices are known: the profit is set to `0`, and `HedgeModePolicy`
adds that of each position; nothing is stored where no position is known. -/
def updatePnl (s : HedgedUnRealizedPnlStorageDefault K) (key : Key) (bid ask : K) :
    HedgedUnRealizedPnlStorageDefault K :=
  let long := s.longPositionInfo key
  let short := s.shortPositionInfo key
  if long.isSome ∨ short.isSome then
    let pnl := 0 + contribution long bid ask + contribution short bid ask
    { s with unrealizedPnl := Function.update s.unrealizedPnl key (some pnl) }
  else
    s

/-- `UpdatePosition`: the sign of the quantity says whether the position is the long one. -/
def updatePosition (s : HedgedUnRealizedPnlStorageDefault K) (exchange : ExchangeId)
    (tradingPair : TradingPair) (avgPrice netQty : K) : HedgedUnRealizedPnlStorageDefault K :=
  let key := (exchange, tradingPair)
  let info : Option (PositionInfo K) := some { avgPrice, netQty }
  let s :=
    if 0 ≤ netQty then
      { s with longPositionInfo := Function.update s.longPositionInfo key info }
    else
      { s with shortPositionInfo := Function.update s.shortPositionInfo key info }
  match s.bbo key with
  | none => s
  | some bbo => s.updatePnl key bbo.bestBid bbo.bestAsk

/-- `UpdateBBO`: as in the net mode, the first prices of a key are stored. -/
def updateBBO (s : HedgedUnRealizedPnlStorageDefault K) (exchange : ExchangeId)
    (tradingPair : TradingPair) (priceBid priceAsk : K) : HedgedUnRealizedPnlStorageDefault K :=
  let key := (exchange, tradingPair)
  let s := { s with bbo := tryEmplace s.bbo key { bestBid := priceBid, bestAsk := priceAsk } }
  s.updatePnl key priceBid priceAsk

/-- `GetUnRealizedPnl`. -/
def getUnRealizedPnl (s : HedgedUnRealizedPnlStorageDefault K) (exchange : ExchangeId)
    (tradingPair : TradingPair) : Bool × K :=
  match s.unrealizedPnl (exchange, tradingPair) with
  | none => (false, 0)
  | some pnl => (true, pnl)

end HedgedUnRealizedPnlStorageDefault

instance : PnlRealizedStorageInterface (RealizedPnlStorageDefault K) K where
  fixProfit := RealizedPnlStorageDefault.fixProfit

instance : PnlUnRealizedStorageInterface (NetUnRealizedPnlStorageDefault K) K where
  updatePosition := NetUnRealizedPnlStorageDefault.updatePosition

instance : PnlUnRealizedStorageInterface (HedgedUnRealizedPnlStorageDefault K) K where
  updatePosition := HedgedUnRealizedPnlStorageDefault.updatePosition

end CryptobotAlgo.Aos
