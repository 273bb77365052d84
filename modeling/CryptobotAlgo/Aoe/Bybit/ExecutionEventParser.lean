import CryptobotAlgo.Aoe.ExecutionEvent
import CryptobotAlgo.Aoe.ResponseQueueListener

/-!
# The parser of the Bybit executions

A message about executions has an array `data` with an item for each fill.  `ParseAndCreate` goes
through the array, and returns one event.
-/

namespace CryptobotAlgo.Aoe

open Aos

/-- A JSON value. -/
inductive Json
  | null
  | bool (value : Bool)
  | number (text : String)
  | string (text : String)
  | array (items : List Json)
  | object (fields : List (String × Json))

namespace Json

/-- `operator[]`: the field of an object. -/
def field (value : Json) (key : String) : Option Json :=
  match value with
  | object fields => fields.lookup key
  | _ => none

def getArray : Json → Option (List Json)
  | array items => some items
  | _ => none

def getString : Json → Option String
  | string text => some text
  | _ => none

end Json

/-- How the JSON library reads the numbers that are in strings; `none` is an error. -/
structure NumberParsers (K : Type) where
  getDouble : String → Option K
  getUint64 : String → Option UInt64

namespace BigStringViewToTradingPair

def kDictionary : List (String × TradingPair) :=
  [("BTCUSDT", .kBTCUSDT), ("ETHUSDT", .kETHUSDT), ("ETHBTC", .kETHBTC), ("BNBUSDT", .kBNBUSDT),
    ("BNBETH", .kBNBETH), ("SOLUSDT", .kSOLUSDT), ("SOLBNB", .kSOLBNB), ("XRPUSDT", .kXRPUSDT),
    ("ADAUSDT", .kADAUSDT), ("ADAXRP", .kADAXRP)]

/-- `Convert`; `none` is the status `false`. -/
def convert (tradingPair : String) : Option TradingPair := kDictionary.lookup tradingPair

end BigStringViewToTradingPair

namespace Bybit

variable {K : Type}

/-- An execution event with all that the parser sets. -/
structure ExecutionEvent (K : Type) extends Aoe.ExecutionEvent K where
  fee : K
  execValue : K
  orderId : UInt64
  deriving DecidableEq, Repr

namespace ExecutionEventParser

/-- `factory_map_`, as `RegisterFromConfig` fills it: the class for a category and a side. -/
def factoryMap : List ((String × String) × ExecutionKind) :=
  [(("spot", "Buy"), .spotBuy), (("spot", "Sell"), .spotSell),
    (("linear", "Buy"), .derivativeBuy), (("linear", "Sell"), .derivativeSell)]

/-- The field of the item, a number in a string. -/
def numberInString {N : Type} (get : String → Option N) (item : Json) (key : String) :
    Option N := do
  let value ← item.field key
  let text ← value.getString
  get text

/-- What the `for` does with an item: return `{false, nullptr}` or throw (`none`), go on with the
next item (`some none`), or return the event. -/
def parseItem (numbers : NumberParsers K) (item : Json) : Option (Option (ExecutionEvent K)) := do
  let category ← item.field "category"
  let side ← item.field "side"
  let feeRate ← numberInString numbers.getDouble item "execFee"
  let execPrice ← numberInString numbers.getDouble item "execPrice"
  let execQty ← numberInString numbers.getDouble item "execQty"
  let execValue ← numberInString numbers.getDouble item "execValue"
  let symbol ← item.field "symbol"
  let orderId ← numberInString numbers.getUint64 item "orderId"
  let category ← category.getString
  let side ← side.getString
  match factoryMap.lookup (category, side) with
  | none => some none
  | some kind =>
    let symbol ← symbol.getString
    let tradingPair ← BigStringViewToTradingPair.convert symbol
    some (some ⟨⟨kind, execPrice, execQty, .kBybit, tradingPair⟩, feeRate, execValue, orderId⟩)

/-- The `for`. -/
def parseItems (numbers : NumberParsers K) : List Json → Option (ExecutionEvent K)
  | [] => none
  | item :: items =>
    match parseItem numbers item with
    | none => none
    | some none => parseItems numbers items
    | some (some event) => some event

/-- `ParseAndCreate`. -/
def parseAndCreate (numbers : NumberParsers K) (doc : Json) : Option (ExecutionEvent K) := do
  let data ← doc.field "data"
  let array ← data.getArray
  parseItems numbers array

end ExecutionEventParser

/-- The listener of the executions; the watcher takes the events. -/
def executionResponseListener {Msg : Type} (iterate : Msg → Option Json)
    (numbers : NumberParsers K) : ResponseQueueListener Msg Json (ExecutionEvent K) :=
  ⟨iterate, ExecutionEventParser.parseAndCreate numbers⟩

end Bybit

end CryptobotAlgo.Aoe
