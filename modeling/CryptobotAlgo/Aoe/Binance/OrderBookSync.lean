import CryptobotAlgo.Aoe.Binance.OrderBookEvent
import CryptobotAlgo.Feed.Basic
import CryptobotAlgo.Machine.Basic

/-!
# Binance order book synchronisation

The spot and the futures `OrderBookSync` join the stream of diffs with a snapshot fetched on
request.  Both handlers run on one strand and never suspend, so each is one step.  The two classes
have the same text except for `checkPacketLost`, which is a parameter here.

A handler returns the new state and its effects in order: the calls on the order book, and the
requests for a snapshot that it spawns.  `syncMachine` adds the environment: a snapshot event is
delivered only while a request is unanswered.
-/

namespace CryptobotAlgo.Aoe.Binance

open Aos Feed

variable {Price Qty Diff : Type*}

/-- The members of the class. -/
structure OrderBookSync (Price Qty Diff : Type*) where
  lastDiffUpdateId : UInt64 := 0
  lastSnapshotUpdateId : UInt64 := 0
  needMakeSnapshot : Bool := true
  needProcessCurrentSnapshot : Bool := false
  diffPacketLost : Bool := true
  snapshotRequestInFlight : Bool := false
  snapshotWasProcessed : Bool := false
  lastSnapshot : Option (OrderBookSnapshotEvent Price Qty) := none
  /-- The buffered diffs, front first. -/
  diffs : List Diff := []

/-- What a handler does to the outside. -/
inductive Effect (Price Qty Diff : Type*)
  /-- `order_book_.Clear()` or `order_book_.OnEvent(ptr)` -/
  | orderBook (c : Call (OrderBookSnapshotEvent Price Qty) Diff)
  /-- `co_spawn(thread_pool_, RequestNewSnapshot(pair), detached)` -/
  | requestNewSnapshot (pair : TradingPair)
  deriving DecidableEq, Repr

/-- The call on the order book, if the effect is one. -/
def Effect.call? : Effect Price Qty Diff → Option (Call (OrderBookSnapshotEvent Price Qty) Diff)
  | orderBook c => some c
  | requestNewSnapshot _ => none

/-- The effect is a request for a snapshot. -/
def Effect.isRequest : Effect Price Qty Diff → Bool
  | orderBook _ => false
  | requestNewSnapshot _ => true

/-- The calls on the order book among the effects. -/
def calls (effects : List (Effect Price Qty Diff)) :
    List (Call (OrderBookSnapshotEvent Price Qty) Diff) :=
  effects.filterMap Effect.call?

namespace OrderBookSync

variable [OrderBookDiffEventInterface Diff]

/-- `FirstUpdateId <= snapshot + 1 && FinalUpdateId >= snapshot + 1`: the diff contains the update
after the snapshot. -/
def bridges (snapshotUpdateId : UInt64) (diff : Diff) : Bool :=
  firstUpdateId diff ≤ snapshotUpdateId + 1 && snapshotUpdateId + 1 ≤ finalUpdateId diff

/-- The loop of `ProcessSnapshot`: diffs that do not bridge the snapshot are dropped from the
front, and the last id follows them. -/
def skipEarlierDiffs (snapshotUpdateId : UInt64) : UInt64 → List Diff → UInt64 × List Diff
  | last, [] => (last, [])
  | last, d :: ds =>
    if bridges snapshotUpdateId d then (last, d :: ds)
    else skipEarlierDiffs snapshotUpdateId (finalUpdateId d) ds

/-- `ProcessSnapshot`: it makes no call on the order book. -/
def processSnapshot (s : OrderBookSync Price Qty Diff) (ptr : OrderBookSnapshotEvent Price Qty) :
    OrderBookSync Price Qty Diff :=
  let skipped := skipEarlierDiffs ptr.updateId s.lastDiffUpdateId s.diffs
  let s := { s with
    lastSnapshotUpdateId := ptr.updateId
    lastSnapshot := some ptr
    snapshotRequestInFlight := false
    lastDiffUpdateId := skipped.1
    diffs := skipped.2 }
  if ptr.tradingPair = .kCount then
    -- the snapshot could not be parsed
    { s with needProcessCurrentSnapshot := false, needMakeSnapshot := true }
  else
    { s with needProcessCurrentSnapshot := true }

/-- The last loop of `ProcessDiff`: buffered diffs are forwarded until one does not continue the
chain.  On a loss the buffer is cleared and a new snapshot is needed. -/
def drainDiffs (checkPacketLost : UInt64 → Diff → Bool) (s : OrderBookSync Price Qty Diff) :
    List Diff → OrderBookSync Price Qty Diff × List (Effect Price Qty Diff)
  | [] => ({ s with diffs := [] }, [])
  | d :: ds =>
    if checkPacketLost s.lastDiffUpdateId d then
      -- `need_clear_buffer_diffs`: `d` and what is behind it are dropped
      ({ s with
          diffPacketLost := true
          needMakeSnapshot := true
          snapshotWasProcessed := false
          diffs := [] }, [])
    else
      let r := drainDiffs checkPacketLost
        { s with diffPacketLost := false, lastDiffUpdateId := finalUpdateId d } ds
      (r.1, .orderBook (.diff d) :: r.2)

/-- The middle of `ProcessDiff`: a snapshot that waits is forwarded.  A null pointer is never
forwarded, since the flag is only raised once a snapshot is stored. -/
def applySnapshot (s : OrderBookSync Price Qty Diff) :
    OrderBookSync Price Qty Diff × List (Effect Price Qty Diff) :=
  if s.needProcessCurrentSnapshot then
    ({ s with needProcessCurrentSnapshot := false, snapshotWasProcessed := true },
      s.lastSnapshot.toList.map fun snapshot => .orderBook (.snapshot snapshot))
  else (s, [])

/-- `ProcessDiff`, given the class's test for a lost packet. -/
def processDiff (checkPacketLost : UInt64 → Diff → Bool) (s : OrderBookSync Price Qty Diff)
    (ptr : Diff) : OrderBookSync Price Qty Diff × List (Effect Price Qty Diff) :=
  -- after a loss the diff is buffered, and found lost again by the last loop
  if s.snapshotWasProcessed && !checkPacketLost s.lastDiffUpdateId ptr then
    ({ s with lastDiffUpdateId := finalUpdateId ptr }, [.orderBook (.diff ptr)])
  else
    let s := { s with diffs := s.diffs ++ [ptr] }
    if s.needMakeSnapshot && !s.snapshotRequestInFlight then
      ({ s with snapshotRequestInFlight := true, needMakeSnapshot := false },
        [.orderBook .clear, .requestNewSnapshot (tradingPair ptr)])
    else if s.snapshotRequestInFlight then (s, [])
    else
      -- the snapshot, if it waits, reaches the book before the buffer does
      let a := applySnapshot s
      let r := drainDiffs checkPacketLost a.1 a.1.diffs
      (r.1, a.2 ++ r.2)

end OrderBookSync

/-! ### The class with its environment -/

/-- An event delivered to the class. -/
inductive Event (Price Qty Diff : Type*)
  | snapshot (ptr : OrderBookSnapshotEvent Price Qty)
  | diff (ptr : Diff)

/-- The class and the number of snapshot requests it has spawned that no snapshot has answered. -/
structure SyncState (Price Qty Diff : Type*) where
  sync : OrderBookSync Price Qty Diff := {}
  outstanding : ℕ := 0

variable [OrderBookDiffEventInterface Diff]

/-- The handlers as a machine; a snapshot event answers an outstanding request. -/
def syncMachine (checkPacketLost : UInt64 → Diff → Bool) :
    Machine (SyncState Price Qty Diff) (Event Price Qty Diff) (Effect Price Qty Diff) where
  enabled s
    | .snapshot _ => 0 < s.outstanding
    | .diff _ => True
  step s
    | .snapshot ptr => (⟨s.sync.processSnapshot ptr, s.outstanding - 1⟩, [])
    | .diff ptr =>
      let r := s.sync.processDiff checkPacketLost ptr
      (⟨r.1, s.outstanding + r.2.countP Effect.isRequest⟩, r.2)

instance (checkPacketLost : UInt64 → Diff → Bool) (s : SyncState Price Qty Diff)
    (e : Event Price Qty Diff) : Decidable ((syncMachine checkPacketLost).enabled s e) :=
  match e with
  | .snapshot _ => inferInstanceAs (Decidable (0 < s.outstanding))
  | .diff _ => inferInstanceAs (Decidable True)

namespace Spot

/-- Spot: the diff does not start right after the last one. -/
def checkPacketLost (lastDiffUpdateId : UInt64) (diff : OrderBookDiffEvent Price Qty) : Bool :=
  diff.firstUpdateId != lastDiffUpdateId + 1

/-- The spot `OrderBookSync`. -/
def machine : Machine (SyncState Price Qty (OrderBookDiffEvent Price Qty))
    (Event Price Qty (OrderBookDiffEvent Price Qty))
    (Effect Price Qty (OrderBookDiffEvent Price Qty)) :=
  syncMachine checkPacketLost

instance (s : SyncState Price Qty (OrderBookDiffEvent Price Qty))
    (e : Event Price Qty (OrderBookDiffEvent Price Qty)) : Decidable (machine.enabled s e) :=
  inferInstanceAs (Decidable ((syncMachine checkPacketLost).enabled s e))

end Spot

namespace Futures

/-- Futures: the diff does not name the last one as the one before it. -/
def checkPacketLost (lastDiffUpdateId : UInt64) (diff : OrderBookDiffEvent Price Qty) : Bool :=
  diff.previousUpdateId != lastDiffUpdateId

/-- The futures `OrderBookSync`. -/
def machine : Machine (SyncState Price Qty (OrderBookDiffEvent Price Qty))
    (Event Price Qty (OrderBookDiffEvent Price Qty))
    (Effect Price Qty (OrderBookDiffEvent Price Qty)) :=
  syncMachine checkPacketLost

instance (s : SyncState Price Qty (OrderBookDiffEvent Price Qty))
    (e : Event Price Qty (OrderBookDiffEvent Price Qty)) : Decidable (machine.enabled s e) :=
  inferInstanceAs (Decidable ((syncMachine checkPacketLost).enabled s e))

end Futures

end CryptobotAlgo.Aoe.Binance
