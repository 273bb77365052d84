import CryptobotAlgo.Aoe.Bybit.ExecutionEventParser
import CryptobotAlgo.Aoe.OrderBookEventParsers
import CryptobotAlgo.Machine.Series

/-!
# From messages about executions to positions

The listener of the executions calls the watcher on its own strand, and the watcher lets the event
change the position storage: there is no queue between them.

Binance reports each execution in a message of its own.  Its parsers of executions and of trades,
for the spot market and for the futures market, have the same text up to the classes of the events.
-/

namespace CryptobotAlgo.Aoe

open Aos

variable {K : Type}

namespace Binance

/-- An execution event with all that the parsers set. -/
structure ExecutionEvent (K : Type) extends Aoe.ExecutionEvent K where
  fee : K
  execValue : K
  orderId : UInt64
  deriving DecidableEq, Repr

/-- The text that the parsers share. -/
def parseExecution (factoryMap : List (String × ExecutionKind)) (numbers : NumberParsers K)
    (doc : Json) : Option (ExecutionEvent K) := do
  let execType ← stringField doc "x"
  if execType ≠ "TRADE" then none
  let symbol ← doc.field "s"
  let side ← doc.field "S"
  let fee ← Bybit.ExecutionEventParser.numberInString numbers.getDouble doc "n"
  let execPrice ← Bybit.ExecutionEventParser.numberInString numbers.getDouble doc "L"
  let execQty ← Bybit.ExecutionEventParser.numberInString numbers.getDouble doc "l"
  let execValue ← Bybit.ExecutionEventParser.numberInString numbers.getDouble doc "Y"
  let orderId ← Bybit.ExecutionEventParser.numberInString numbers.getUint64 doc "c"
  let side ← side.getString
  let kind ← factoryMap.lookup side
  let symbol ← symbol.getString
  let tradingPair ← BigStringViewToTradingPair.convert symbol
  some ⟨⟨kind, execPrice, execQty, .kBinance, tradingPair⟩, fee, execValue, orderId⟩

/-- `factory_map_` of the spot market. -/
def Spot.factoryMap : List (String × ExecutionKind) := [("BUY", .spotBuy), ("SELL", .spotSell)]

/-- `factory_map_` of the futures market. -/
def Futures.factoryMap : List (String × ExecutionKind) :=
  [("BUY", .derivativeBuy), ("SELL", .derivativeSell)]

/-- `ParseAndCreate` of the executions of the spot market. -/
def Spot.ExecutionEventParser.parseAndCreate (numbers : NumberParsers K) :
    Json → Option (ExecutionEvent K) :=
  parseExecution Spot.factoryMap numbers

/-- `ParseAndCreate` of the trades of the spot market. -/
def Spot.TradeEventParser.parseAndCreate (numbers : NumberParsers K) :
    Json → Option (ExecutionEvent K) :=
  parseExecution Spot.factoryMap numbers

/-- `ParseAndCreate` of the executions of the futures market. -/
def Futures.ExecutionEventParser.parseAndCreate (numbers : NumberParsers K) :
    Json → Option (ExecutionEvent K) :=
  parseExecution Futures.factoryMap numbers

/-- `ParseAndCreate` of the trades of the futures market. -/
def Futures.TradeEventParser.parseAndCreate (numbers : NumberParsers K) :
    Json → Option (ExecutionEvent K) :=
  parseExecution Futures.factoryMap numbers

end Binance

end CryptobotAlgo.Aoe
