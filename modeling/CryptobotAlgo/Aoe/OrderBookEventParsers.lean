import CryptobotAlgo.Aoe.Bybit.ExecutionEventParser

/-!
# The parsers of the order book messages

Both exchanges send the levels of a side as an array of arrays, with the price and the quantity in
strings.  The loop over it has the same text in all parsers.

Bybit sends snapshots and diffs on one channel, and names the kind in the message.  Binance sends
diffs, those of the futures market with one id more, and answers a request with a snapshot that
does not name its trading pair; the listener of the snapshots sets it.
-/

namespace CryptobotAlgo.Aoe

open Aos

variable {K : Type}

namespace Json

def getObject : Json → Option (List (String × Json))
  | object fields => some fields
  | _ => none

end Json

/-- `doc[key].get_string()`. -/
def stringField (doc : Json) (key : String) : Option String := do
  let value ← doc.field key
  value.getString

/-- `doc[key].get_uint64()`, for a number that is not in a string. -/
def uint64Field (numbers : NumberParsers K) (doc : Json) (key : String) : Option UInt64 := do
  let value ← doc.field key
  match value with
  | .number text => numbers.getUint64 text
  | _ => none

/-- The symbol of the message, as a trading pair. -/
def tradingPairField (doc : Json) (key : String) : Option TradingPair := do
  let symbol ← stringField doc key
  BigStringViewToTradingPair.convert symbol

/-- `get_double_in_string()` of an item of a level. -/
def doubleItem (numbers : NumberParsers K) (item : Option Json) : Option K := do
  let value ← item
  let text ← value.getString
  numbers.getDouble text

/-- A level: its first two items are read. -/
def parseLevel (numbers : NumberParsers K) (entry : Json) : Option (OrderBookLevelRaw K K) := do
  let pair ← entry.getArray
  let price ← doubleItem numbers pair[0]?
  let qty ← doubleItem numbers pair[1]?
  some ⟨price, qty⟩

/-- The levels of a side; `none` is an error in one of them. -/
def parseLevels (numbers : NumberParsers K) (doc : Json) (key : String) :
    Option (List (OrderBookLevelRaw K K)) :=
  match (doc.field key).bind Json.getArray with
  -- a message without the field leaves the side of the event empty
  | none => some []
  | some entries => entries.mapM (parseLevel numbers)

namespace Bybit

/-- An order book event with all that the parser sets. -/
structure ParsedOrderBookEvent (K : Type) where
  event : Event K K
  tradingPair : TradingPair
  deriving DecidableEq, Repr

namespace OrderBookEventParser

/-- `factory_map_`, as `RegisterFromConfig` fills it. -/
def factoryMap : List (String × (OrderBookEvent K K → Event K K)) :=
  [("snapshot", .snapshot), ("delta", .diff)]

/-- `ParseAndCreate`. -/
def parseAndCreate (numbers : NumberParsers K) (doc : Json) : Option (ParsedOrderBookEvent K) := do
  let eventType ← stringField doc "type"
  let data ← doc.field "data"
  let _ ← data.getObject
  let create ← factoryMap.lookup eventType
  let updateId ← uint64Field numbers data "u"
  let tradingPair ← tradingPairField data "s"
  let bids ← parseLevels numbers data "b"
  let asks ← parseLevels numbers data "a"
  some ⟨create { updateId, bids, asks }, tradingPair⟩

end OrderBookEventParser

end Bybit

namespace Binance

/-- `ParseAndCreate` of `DiffEventParserBase`; what the futures market adds is read by
`parsePrevious` and set by `create`. -/
def DiffEventParserBase.parseAndCreate {P Diff : Type} (parsePrevious : Json → Option P)
    (create : P → OrderBookDiffEvent K K → Diff) (numbers : NumberParsers K) (doc : Json) :
    Option Diff := do
  let eventType ← stringField doc "e"
  if eventType ≠ "depthUpdate" then none
  -- the time of the event is only logged
  let _ ← uint64Field numbers doc "E"
  let finalUpdateId ← uint64Field numbers doc "u"
  let firstUpdateId ← uint64Field numbers doc "U"
  let previous ← parsePrevious doc
  let tradingPair ← tradingPairField doc "s"
  let bids ← parseLevels numbers doc "b"
  let asks ← parseLevels numbers doc "a"
  some (create previous { firstUpdateId, finalUpdateId, tradingPair, bids, asks })

/-- The parser of the diffs of the spot market. -/
def Spot.DiffEventParser.parseAndCreate (numbers : NumberParsers K) :
    Json → Option (OrderBookDiffEvent K K) :=
  DiffEventParserBase.parseAndCreate (fun _ => some ()) (fun _ diff => diff) numbers

/-- The parser of the diffs of the futures market, which also have the field `pu`. -/
def Futures.DiffEventParser.parseAndCreate (numbers : NumberParsers K) :
    Json → Option (Futures.OrderBookDiffEvent K K) :=
  DiffEventParserBase.parseAndCreate (fun doc => uint64Field numbers doc "pu")
    (fun previousUpdateId diff => { diff with previousUpdateId }) numbers

/-- `ParseAndCreate` of `SnapshotEventParser`. -/
def SnapshotEventParser.parseAndCreate (numbers : NumberParsers K) (doc : Json) :
    Option (OrderBookSnapshotEvent K K) := do
  let updateId ← uint64Field numbers doc "lastUpdateId"
  let bids ← parseLevels numbers doc "bids"
  let asks ← parseLevels numbers doc "asks"
  some { updateId, bids, asks }

/-- The listener of the snapshots, which sets the trading pair. -/
def snapshotResponseListener {Msg : Type} (iterate : Msg → Option Json) (numbers : NumberParsers K)
    (tradingPair : TradingPair) : ResponseQueueListener Msg Json (OrderBookSnapshotEvent K K) :=
  ⟨iterate, fun doc => (SnapshotEventParser.parseAndCreate numbers doc).map
    fun event => { event with tradingPair }⟩

end Binance

end CryptobotAlgo.Aoe
