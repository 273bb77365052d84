import CryptobotAlgo.Aoe.Binance.OrderBookEvent
import CryptobotAlgo.Aoe.Bybit.OrderBookSync

/-!
# The listeners of the response queues

The reader of a WebSocket session puts what it has received into a queue, and calls
`OnDataEnqueued`, which spawns `ProcessQueue` on the strand of the listener.  The strand runs these
calls one at a time.  They run on a thread pool, so that the reader may go on between any two
accesses to the queue.

The listeners have the same text up to their parser and the member function that takes the event:
`OnEvent` for the Bybit order book and for executions, `AcceptDiff` for the Binance diffs.
-/

namespace CryptobotAlgo.Aoe

variable {Msg Doc Event : Type}

/-- What the listeners do in their own ways. -/
structure ResponseQueueListener (Msg Doc Event : Type) where
  /-- `iterate` of the JSON parser; `none` is an error -/
  iterate : Msg → Option Doc
  /-- `ParseAndCreate`; `none` is the status `false`, or an exception -/
  parseAndCreate : Doc → Option Event

/-- Where a call of `ProcessQueue` is. -/
inductive ProcessQueue (Msg : Type)
  /-- at `try_dequeue`, for the first time -/
  | entered
  /-- it has dequeued a message -/
  | dequeued (msg : Msg)
  /-- at `try_dequeue` again -/
  | again
  deriving DecidableEq, Repr

/-- The queue, the reader and the strand. -/
structure ListenerState (Msg : Type) where
  queue : List Msg := []
  /-- the reader has enqueued a message and has not called `OnDataEnqueued` for it -/
  notifying : Bool := false
  /-- the calls of `ProcessQueue` that have not started -/
  pending : ℕ := 0
  /-- the call that runs -/
  running : Option (ProcessQueue Msg) := none
  deriving DecidableEq, Repr

inductive ListenerAction (Msg Event : Type)
  | dequeue (msg : Msg)
  /-- the event is passed on -/
  | forward (event : Event)
  deriving DecidableEq, Repr

inductive ListenerEvent (Msg : Type)
  /-- the reader puts a message into the queue -/
  | enqueue (msg : Msg)
  /-- the reader calls `OnDataEnqueued` -/
  | onDataEnqueued
  /-- the strand starts a call of `ProcessQueue` -/
  | start
  /-- the call that runs goes on -/
  | processQueue
  deriving DecidableEq, Repr

namespace ListenerState

/-- The condition of the `while`. -/
def tryDequeue (s : ListenerState Msg) : ListenerState Msg × List (ListenerAction Msg Event) :=
  match s.queue with
  | [] => ({ s with running := none }, [])
  | msg :: rest => ({ s with queue := rest, running := some (.dequeued msg) }, [.dequeue msg])

/-- `ProcessQueue`, from one access to the queue to the next. -/
def processQueue (listener : ResponseQueueListener Msg Doc Event) (s : ListenerState Msg) :
    ListenerState Msg × List (ListenerAction Msg Event) :=
  match s.running with
  | none => (s, [])
  | some .entered => s.tryDequeue
  | some .again => s.tryDequeue
  | some (.dequeued msg) =>
    match listener.iterate msg with
    | none => ({ s with running := none }, [])
    | some doc =>
      match listener.parseAndCreate doc with
      | none => ({ s with running := none }, [])
      | some event => ({ s with running := some .again }, [.forward event])

def step (listener : ResponseQueueListener Msg Doc Event) (s : ListenerState Msg) :
    ListenerEvent Msg → ListenerState Msg × List (ListenerAction Msg Event)
  | .enqueue msg => ({ s with queue := s.queue ++ [msg], notifying := true }, [])
  | .onDataEnqueued => ({ s with notifying := false, pending := s.pending + 1 }, [])
  | .start => ({ s with pending := s.pending - 1, running := some .entered }, [])
  | .processQueue => s.processQueue listener

/-- The reader calls `OnDataEnqueued` after each message, and the strand runs one call at a time. -/
def Enabled (s : ListenerState Msg) : ListenerEvent Msg → Prop
  | .enqueue _ => s.notifying = false
  | .onDataEnqueued => s.notifying = true
  | .start => s.pending ≠ 0 ∧ s.running = none
  | .processQueue => s.running ≠ none

instance [DecidableEq Msg] (s : ListenerState Msg) (e : ListenerEvent Msg) :
    Decidable (s.Enabled e) :=
  match e with
  | .enqueue _ => inferInstanceAs (Decidable (s.notifying = false))
  | .onDataEnqueued => inferInstanceAs (Decidable (s.notifying = true))
  | .start => inferInstanceAs (Decidable (s.pending ≠ 0 ∧ s.running = none))
  | .processQueue => inferInstanceAs (Decidable (s.running ≠ none))

end ListenerState

/-- A listener with the reader that feeds it. -/
def listenerMachine (listener : ResponseQueueListener Msg Doc Event) :
    Machine (ListenerState Msg) (ListenerEvent Msg) (ListenerAction Msg Event) where
  enabled := ListenerState.Enabled
  step := ListenerState.step listener

instance [DecidableEq Msg] (listener : ResponseQueueListener Msg Doc Event) (s : ListenerState Msg)
    (e : ListenerEvent Msg) : Decidable ((listenerMachine listener).enabled s e) :=
  inferInstanceAs (Decidable (s.Enabled e))

section Listeners

variable {Price Qty : Type} (iterate : List UInt8 → Option Doc)

/-- The listener of the Bybit order book. -/
def Bybit.orderBookResponseListener (parser : Doc → Option (Bybit.OrderBookEvent Price Qty)) :
    ResponseQueueListener (List UInt8) Doc (Bybit.OrderBookEvent Price Qty) :=
  ⟨iterate, parser⟩

/-- The listener of the diffs of the spot market. -/
def Binance.diffResponseListener (parser : Doc → Option (Binance.OrderBookDiffEvent Price Qty)) :
    ResponseQueueListener (List UInt8) Doc (Binance.OrderBookDiffEvent Price Qty) :=
  ⟨iterate, parser⟩

/-- The listener of the diffs of the futures market. -/
def Binance.Futures.diffResponseListener
    (parser : Doc → Option (Binance.Futures.OrderBookDiffEvent Price Qty)) :
    ResponseQueueListener (List UInt8) Doc (Binance.Futures.OrderBookDiffEvent Price Qty) :=
  ⟨iterate, parser⟩

end Listeners

end CryptobotAlgo.Aoe
