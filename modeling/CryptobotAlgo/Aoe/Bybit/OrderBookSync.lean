import CryptobotAlgo.Aos.OrderBook
import CryptobotAlgo.Feed.Basic
import CryptobotAlgo.Machine.Basic

/-!
# Bybit order book synchronisation

Bybit pushes a snapshot after the subscription and then diffs, all on one channel and numbered by
one update id; a snapshot may be pushed again at any time.  The handlers run on one strand and
never suspend, so each is one step that returns the calls it makes on the order book.

The class does not initialise `current_diff_update_id_` and `current_snapshot_update_id_`, so a run
starts from any two ids (`OrderBookSync.start`).
-/

namespace CryptobotAlgo.Aoe.Bybit

open Aos Feed

variable {Price Qty : Type*}

/-- An order book event; snapshots and diffs carry the same data. -/
structure OrderBookEvent (Price Qty : Type*) where
  updateId : UInt64 := 0
  bids : List (OrderBookLevelRaw Price Qty) := []
  asks : List (OrderBookLevelRaw Price Qty) := []
  deriving DecidableEq, Repr

instance (Price Qty : Type) : OrderBookEventInterface (OrderBookEvent Price Qty) Price Qty where
  bids := OrderBookEvent.bids
  asks := OrderBookEvent.asks

/-- A call on the order book. -/
abbrev BookCall (Price Qty : Type*) := Call (OrderBookEvent Price Qty) (OrderBookEvent Price Qty)

/-- The members of the class. -/
structure OrderBookSync where
  currentDiffUpdateId : UInt64
  currentSnapshotUpdateId : UInt64
  receivedSnapshotSuccess : Bool := false
  deriving DecidableEq, Repr

namespace OrderBookSync

/-- The class after its constructor, with the ids it happens to find. -/
def start (diffUpdateId snapshotUpdateId : UInt64) : OrderBookSync where
  currentDiffUpdateId := diffUpdateId
  currentSnapshotUpdateId := snapshotUpdateId

/-- `ProcessSnapshot`: a snapshot with the current id is ignored, and one with id `1` clears the
book first. -/
def processSnapshot (s : OrderBookSync) (ptr : OrderBookEvent Price Qty) :
    OrderBookSync × List (BookCall Price Qty) :=
  let s := { s with receivedSnapshotSuccess := true }
  if s.currentSnapshotUpdateId = ptr.updateId then (s, [])
  else
    let s := { s with currentSnapshotUpdateId := ptr.updateId }
    let cleared := if s.currentSnapshotUpdateId = 1 then [.clear] else []
    ({ s with currentDiffUpdateId := s.currentSnapshotUpdateId }, cleared ++ [.snapshot ptr])

/-- `ProcessDiff`: a diff that does not follow the current one clears the book and resets the
class. -/
def processDiff (s : OrderBookSync) (ptr : OrderBookEvent Price Qty) :
    OrderBookSync × List (BookCall Price Qty) :=
  -- without a snapshot the diff is ignored
  if !s.receivedSnapshotSuccess then (s, [])
  else if s.currentDiffUpdateId + 1 ≠ ptr.updateId then
    ({ s with
        receivedSnapshotSuccess := false
        currentDiffUpdateId := 0
        currentSnapshotUpdateId := 0 }, [.clear])
  else ({ s with currentDiffUpdateId := ptr.updateId }, [.diff ptr])

end OrderBookSync

/-- An event delivered to the class. -/
inductive Event (Price Qty : Type*)
  | snapshot (ptr : OrderBookEvent Price Qty)
  | diff (ptr : OrderBookEvent Price Qty)
  deriving DecidableEq, Repr

/-- The update id of an event. -/
def Event.updateId : Event Price Qty → UInt64
  | snapshot ptr => ptr.updateId
  | diff ptr => ptr.updateId

/-- The event is a snapshot. -/
def Event.IsSnapshot : Event Price Qty → Prop
  | snapshot _ => True
  | diff _ => False

/-- The handlers as a machine; events may come in any order. -/
def machine : Machine OrderBookSync (Event Price Qty) (BookCall Price Qty) where
  enabled _ _ := True
  step s
    | .snapshot ptr => s.processSnapshot ptr
    | .diff ptr => s.processDiff ptr

end CryptobotAlgo.Aoe.Bybit
