import CryptobotAlgo.Aoe.Binance.Equiv.LocalBook
import CryptobotAlgo.Aoe.Binance.OrderBookPipeline
import CryptobotAlgo.Aoe.Equiv.OrderBookEventParsers
import CryptobotAlgo.Aoe.Equiv.ResponseQueueListener
import Mathlib.Data.List.ReduceOption

/-!
# The messages and the local book

From the messages in the two queues to the levels of the book, over all schedules of the four
strands.  Each listener passes on the events of its messages in their order, but a diff and a
snapshot may overtake each other: all that is asked of this is that a snapshot answers a request,
and is not older than the first diff in the buffer, at the moment at which it is handled.
-/

namespace CryptobotAlgo.Aoe.Binance

open Aos Feed LastWrite OrderBookSync OrderBookEventListener Machine

/-! ### Messages and events -/

section Messages

variable {K Msg : Type} {iterate : Msg → Option Json} {numbers : NumberParsers K}

variable (out : List (ListenerAction Msg (OrderBookDiffEvent K K) ⊕
  ListenerAction Msg (OrderBookSnapshotEvent K K)))

end Messages

/-! ### The four strands -/

section Strands

variable {K Msg : Type} {iterate : Msg → Option Json} {numbers : NumberParsers K}
  {tradingPair : TradingPair}

variable [LinearOrder K] [Zero K]

end Strands

/-! ### A schedule -/

end CryptobotAlgo.Aoe.Binance
