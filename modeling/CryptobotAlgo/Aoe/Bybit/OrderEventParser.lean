import CryptobotAlgo.Aoe.Bybit.ExecutionEventParser
import CryptobotAlgo.Aoe.Bybit.OrderEvent

/-!
# The parser of the Bybit orders

A message of the order stream has an array `data` with an item for each order.  `ParseAndCreate`
goes through the array, and returns the event for the first item whose status is in `factory_map_`.

`RegisterFromConfig` fills `factory_map_`; it is private, and the constructor does not call it.
-/

namespace CryptobotAlgo.Aoe.Bybit

open Aos
open ExecutionEventParser (numberInString)

variable {K : Type}

/-- An order event with all that the parser sets. -/
structure ParsedOrderEvent (K : Type) extends OrderEvent K where
  tradingPair : TradingPair
  deriving DecidableEq, Repr

/-- `OrderEventParser`; `factory_map_` gives the class for a status. -/
structure OrderEventParser where
  factoryMap : List (String × OrderEventClass) := []

namespace OrderEventParser

/-- The constructor, which makes the pools only. -/
def new : OrderEventParser := {}

def registerFromConfig (parser : OrderEventParser) : OrderEventParser where
  factoryMap :=
    [("New", .new), ("PartiallyFilled", .partiallyFilled), ("Untriggered", .untriggered),
      ("Rejected", .rejected), ("PartiallyFilledCanceled", .partiallyFilledCancelled),
      ("Filled", .filled), ("Cancelled", .cancelled), ("Triggered", .triggered),
      ("Deactivated", .deactivated)] ++ parser.factoryMap

/-- What the `for` does with an item: return `{false, nullptr}` or throw (`none`), go on with the
next item (`some none`), or return the event. -/
def parseItem (parser : OrderEventParser) (numbers : NumberParsers K) (item : Json) :
    Option (Option (ParsedOrderEvent K)) := do
  let price ← numberInString numbers.getDouble item "price"
  let leavesQty ← numberInString numbers.getDouble item "leavesQty"
  let symbol ← item.field "symbol"
  let orderId ← numberInString numbers.getUint64 item "orderLinkId"
  let orderStatus ← item.field "orderStatus"
  -- `find` takes a string, and the conversion throws for any other value
  let orderStatus ← orderStatus.getString
  match parser.factoryMap.lookup orderStatus with
  | none => some none
  | some eventClass =>
    let symbol ← symbol.getString
    let tradingPair ← BigStringViewToTradingPair.convert symbol
    some (some ⟨⟨eventClass, orderId, price, leavesQty⟩, tradingPair⟩)

/-- The `for`. -/
def parseItems (parser : OrderEventParser) (numbers : NumberParsers K) :
    List Json → Option (ParsedOrderEvent K)
  | [] => none
  | item :: items =>
    match parser.parseItem numbers item with
    | none => none
    | some none => parser.parseItems numbers items
    | some (some event) => some event

/-- `ParseAndCreate`. -/
def parseAndCreate (parser : OrderEventParser) (numbers : NumberParsers K) (doc : Json) :
    Option (ParsedOrderEvent K) := do
  let data ← doc.field "data"
  let array ← data.getArray
  parser.parseItems numbers array

end OrderEventParser

end CryptobotAlgo.Aoe.Bybit
