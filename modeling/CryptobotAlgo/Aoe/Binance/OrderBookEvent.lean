import CryptobotAlgo.Aos.OrderBook

/-!
# Binance order book events

A snapshot carries the full book and the id of the last update in it; a diff carries the levels
that the updates `firstUpdateId … finalUpdateId` touched.  A futures diff also names the last
update of the diff before it.
-/

namespace CryptobotAlgo.Aoe.Binance

open Aos

/-- A full copy of the book. -/
structure OrderBookSnapshotEvent (Price Qty : Type*) where
  updateId : UInt64 := 0
  tradingPair : TradingPair := .kCount
  bids : List (OrderBookLevelRaw Price Qty) := []
  asks : List (OrderBookLevelRaw Price Qty) := []
  deriving DecidableEq, Repr

/-- An increment of the book. -/
structure OrderBookDiffEvent (Price Qty : Type*) where
  firstUpdateId : UInt64 := 0
  finalUpdateId : UInt64 := 0
  tradingPair : TradingPair := .kCount
  bids : List (OrderBookLevelRaw Price Qty) := []
  asks : List (OrderBookLevelRaw Price Qty) := []
  deriving DecidableEq, Repr

/-- What the synchronisation reads from a diff, whatever its market. -/
class OrderBookDiffEventInterface (Diff : Type*) where
  firstUpdateId : Diff → UInt64
  finalUpdateId : Diff → UInt64
  tradingPair : Diff → TradingPair

export OrderBookDiffEventInterface (firstUpdateId finalUpdateId tradingPair)

instance (Price Qty : Type*) : OrderBookDiffEventInterface (OrderBookDiffEvent Price Qty) where
  firstUpdateId := OrderBookDiffEvent.firstUpdateId
  finalUpdateId := OrderBookDiffEvent.finalUpdateId
  tradingPair := OrderBookDiffEvent.tradingPair

instance (Price Qty : Type) :
    OrderBookEventInterface (OrderBookSnapshotEvent Price Qty) Price Qty where
  bids := OrderBookSnapshotEvent.bids
  asks := OrderBookSnapshotEvent.asks

instance (Price Qty : Type) : OrderBookEventInterface (OrderBookDiffEvent Price Qty) Price Qty where
  bids := OrderBookDiffEvent.bids
  asks := OrderBookDiffEvent.asks

namespace Futures

/-- A futures diff names the final id of the diff before it. -/
structure OrderBookDiffEvent (Price Qty : Type*) extends Binance.OrderBookDiffEvent Price Qty where
  previousUpdateId : UInt64 := 0
  deriving DecidableEq, Repr

instance (Price Qty : Type*) : OrderBookDiffEventInterface (OrderBookDiffEvent Price Qty) where
  firstUpdateId d := d.firstUpdateId
  finalUpdateId d := d.finalUpdateId
  tradingPair d := d.tradingPair

instance (Price Qty : Type) : OrderBookEventInterface (OrderBookDiffEvent Price Qty) Price Qty where
  bids d := d.bids
  asks d := d.asks

end Futures

end CryptobotAlgo.Aoe.Binance
