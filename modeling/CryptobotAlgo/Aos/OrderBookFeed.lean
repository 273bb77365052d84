import CryptobotAlgo.Aos.OrderBook
import CryptobotAlgo.Feed.Basic
import CryptobotAlgo.Machine.Basic

/-!
# The order book behind a feed

A synchronisation posts its calls to the strand of an `OrderBookEventListener`, which handles them
in the order in which they were posted.
-/

namespace CryptobotAlgo.Aos.OrderBookEventListener

open Feed

variable {Price Qty S D : Type} [LinearOrder Price] [DecidableEq Qty] [Zero Qty]
  [OrderBookEventInterface S Price Qty] [OrderBookEventInterface D Price Qty]

/-- The handler that `Clear()` or `OnEvent(ptr)` posts. -/
def handle (l : OrderBookEventListener Price Qty) :
    Call S D → Option (OrderBookEventListener Price Qty)
  | .clear => l.processClear
  | .snapshot ptr => l.processEvent ptr
  | .diff ptr => l.processEvent ptr

/-- A new order book after the calls. -/
def bookAfter (maxLevel : ℕ) (calls : List (Call S D)) :
    Option (OrderBookEventListener Price Qty) :=
  calls.foldlM handle (.new maxLevel)

/-- The strand, which handles one call after another; `none` is a handler that has failed. -/
def machine : Machine (Option (OrderBookEventListener Price Qty)) (Call S D) Empty where
  enabled _ _ := True
  step l call := (l.bind (handle · call), [])

end CryptobotAlgo.Aos.OrderBookEventListener
