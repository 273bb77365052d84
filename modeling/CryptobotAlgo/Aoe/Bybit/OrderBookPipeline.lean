import CryptobotAlgo.Aoe.Bybit.OrderBookSync
import CryptobotAlgo.Aoe.OrderBookEventParsers
import CryptobotAlgo.Aos.OrderBookFeed
import CryptobotAlgo.Machine.Series

/-!
# From the Bybit messages to the local book

The listener of the response queue, the synchronisation and the order book run on strands of their
own, on one thread pool.  Each spawns its handlers on the strand of the next, which runs them one at
a time in the order in which they were spawned; which strand goes on is up to the pool.
-/

namespace CryptobotAlgo.Aoe.Bybit

open Aos

variable {K Msg : Type}

variable [LinearOrder K] [Zero K]

/-- The state of the three strands, and what waits for the last two. -/
abbrev PipelineState (K Msg : Type) :=
  InSeries (InSeries (ListenerState Msg) (Event K K) OrderBookSync) (BookCall K K)
    (Option (OrderBookEventListener K K))

/-- The strands before the first message. -/
def PipelineState.start (maxLevel : ℕ) (s₀ : OrderBookSync) : PipelineState K Msg :=
  ⟨⟨{}, [], s₀⟩, [], some (.new maxLevel)⟩

end CryptobotAlgo.Aoe.Bybit
