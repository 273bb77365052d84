import CryptobotAlgo.Aoe.Binance.OrderBookSync
import CryptobotAlgo.Aoe.OrderBookEventParsers
import CryptobotAlgo.Aos.OrderBookFeed
import CryptobotAlgo.Machine.Series

/-!
# From the Binance messages to the local book

The diffs come over a WebSocket and the snapshots as answers to requests, each into a queue with a
listener of its own.  Both listeners spawn the handlers of the synchronisation on its strand, so
that the order in which it handles a diff and a snapshot is up to the thread pool.  This is the spot
market; the order book is behind the synchronisation, on a fourth strand.
-/

namespace CryptobotAlgo.Aoe.Binance

open Aos Feed

variable {K Msg : Type}

variable [LinearOrder K] [Zero K]

/-- The state of the four strands, and what waits for the last two. -/
abbrev PipelineState (K Msg : Type) :=
  InSeries (InSeries (ListenerState Msg × ListenerState Msg) (Event K K (OrderBookDiffEvent K K))
      (SyncState K K (OrderBookDiffEvent K K)))
    (Call (OrderBookSnapshotEvent K K) (OrderBookDiffEvent K K))
    (Option (OrderBookEventListener K K))

/-- The strands before the first message. -/
def PipelineState.start (maxLevel : ℕ) : PipelineState K Msg :=
  ⟨⟨({}, {}), [], {}⟩, [], some (.new maxLevel)⟩

end CryptobotAlgo.Aoe.Binance
