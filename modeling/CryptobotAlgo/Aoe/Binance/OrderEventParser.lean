import CryptobotAlgo.Aoe.Binance.OrderEvent
import CryptobotAlgo.Aoe.OrderBookEventParsers

/-!
# The parser of the Binance orders, and the watcher

Binance reports each change of an order in a message of its own.  The watcher hands the event that
the parser makes of it to the manager.
-/

namespace CryptobotAlgo.Aoe.Binance

open Aos
open Bybit.ExecutionEventParser (numberInString)

variable {K : Type}

/-- An order event with all that the parser sets. -/
structure ParsedOrderEvent (K : Type) extends OrderEvent K where
  tradingPair : TradingPair
  deriving DecidableEq, Repr

namespace OrderEventParser

/-- What `RegisterFromConfig` registers; the constructor calls it. -/
def factoryMap : List (String × OrderEventClass) :=
  [("NEW", .new), ("PENDING_NEW", .pendingNew), ("PARTIALLY_FILLED", .partiallyFilled),
    ("FILLED", .filled), ("CANCELED", .cancelled), ("PENDING_CANCEL", .pendingCancel),
    ("REJECTED", .rejected), ("EXPIRED", .expired), ("EXPIRED_IN_MATCH", .expiredInMatch)]

/-- `ParseAndCreate`; `none` is the status `false`. -/
def parseAndCreate (numbers : NumberParsers K) (doc : Json) : Option (ParsedOrderEvent K) := do
  let eventType ← stringField doc "e"
  if eventType ≠ "executionReport" then none
  let symbol ← stringField doc "s"
  let orderId ← numberInString numbers.getUint64 doc "c"
  let orderStatus ← stringField doc "X"
  let orderQty ← numberInString numbers.getDouble doc "q"
  let cumExecQty ← numberInString numbers.getDouble doc "z"
  let price ← numberInString numbers.getDouble doc "p"
  let eventClass ← factoryMap.lookup orderStatus
  let tradingPair ← BigStringViewToTradingPair.convert symbol
  some ⟨⟨eventClass, orderId, price, orderQty, cumExecQty⟩, tradingPair⟩

end OrderEventParser

/-- `OnEvent` of `OrderWatcher`, with the manager that it is given. -/
def OrderWatcher.onEvent [Sub K] (m : OrderManager Category OrderStatus K)
    (event : ParsedOrderEvent K) : OrderManager Category OrderStatus K :=
  m.onResponse event.toOrderEvent

end CryptobotAlgo.Aoe.Binance
