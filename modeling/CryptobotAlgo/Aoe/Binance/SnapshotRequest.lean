import CryptobotAlgo.Aoe.Binance.OrderBookSync
import CryptobotAlgo.Aoe.OrderBookEventParsers
import CryptobotAlgo.Aoe.TradingPairNames

/-!
# Requests for a snapshot

`RequestNewSnapshot` of the synchronisation makes a session with an `io_context` of its own, hands a
request to it and runs the context on a thread until nothing is left to do.  The session puts the
body of the response into the queue of the class's own listener, which passes the snapshot on to the
strand of the synchronisation.

The spot class sends the request; the futures class also starts the session, which connects, takes
the request out of its queue and writes it.
-/

namespace CryptobotAlgo.Aoe.Binance

open Aos Feed

variable {K Msg Diff : Type}

/-! ### The request -/

/-- What the two requests are made of. -/
structure SnapshotRequest where
  baseEndPoint : String
  hostName : String
  tradingPair : TradingPair
  limit : ℤ := 5000
  deriving DecidableEq, Repr

/-- A request with the method GET, of version 1.1 and without a body. -/
structure HttpRequest where
  target : String
  host : String
  contentType : String := "application/x-www-form-urlencoded"
  deriving DecidableEq, Repr

namespace SnapshotRequest

/-- `SetLimit`. -/
def setLimit (request : SnapshotRequest) (limit : ℤ) : SnapshotRequest :=
  { request with limit := if 5000 < limit then 5000 else limit }

/-- `Accept`; `none` is the status `false`. -/
def accept (request : SnapshotRequest) : Option HttpRequest := do
  let value ← TradingPairToBigStringView.convert request.tradingPair
  some {
    target := request.baseEndPoint ++ "?symbol=" ++ value ++ "&limit=" ++ toString request.limit
    host := request.hostName }

end SnapshotRequest

/-- The request of the spot market. -/
def Spot.snapshotRequest (pair : TradingPair) : SnapshotRequest where
  baseEndPoint := "/api/v3/depth"
  hostName := "api.binance.com"
  tradingPair := pair

/-- The request of the futures market, which answers with fewer levels. -/
def Futures.snapshotRequest (pair : TradingPair) : SnapshotRequest :=
  SnapshotRequest.setLimit
    { baseEndPoint := "/fapi/v1/depth", hostName := "fapi.binance.com", tradingPair := pair } 1000

/-! ### The session -/

/-- What waits in the `io_context`. -/
inductive RestTask
  /-- the handler that `AsyncWrite` dispatches -/
  | enqueue (request : HttpRequest)
  /-- the coroutine `Run`, spawned by `Start` -/
  | run
  deriving DecidableEq, Repr

/-- Where `Run` is. -/
inductive RunPoint
  /-- it awaits `async_resolve` -/
  | resolving
  /-- it awaits `async_connect` -/
  | connecting
  /-- it awaits `async_handshake` -/
  | handshaking
  /-- it awaits `async_write` -/
  | writing
  /-- it awaits `async_read` -/
  | reading
  /-- the response is in the queue, and the listener has not been called -/
  | notifying
  deriving DecidableEq, Repr

/-- `RestSessionRW`. -/
structure RestSession where
  tasks : List RestTask := []
  messageQueue : List HttpRequest := []
  /-- `none` before `Run` and after it -/
  run : Option RunPoint := none
  deriving DecidableEq, Repr

inductive RestEvent (Msg : Type)
  /-- the context takes a task; `hostSet` is what `SSL_set_tlsext_host_name` returns -/
  | poll (hostSet : Bool)
  /-- the operation is done, or the code goes on -/
  | done
  /-- the operation fails -/
  | failed
  /-- the response has been read -/
  | response (body : Msg)
  deriving DecidableEq, Repr

inductive RestAction (Msg : Type)
  /-- `async_write` -/
  | write (request : HttpRequest)
  /-- `response_queue_.enqueue` -/
  | enqueue (body : Msg)
  | onDataEnqueued
  | closeSessionFast
  deriving DecidableEq, Repr

namespace RestSession

def asyncWrite (s : RestSession) (request : HttpRequest) : RestSession :=
  { s with tasks := s.tasks ++ [.enqueue request] }

def start (s : RestSession) : RestSession := { s with tasks := s.tasks ++ [.run] }

/-- `Send` of `SnapshotRequestSender`. -/
def send (s : RestSession) (request : SnapshotRequest) : RestSession :=
  match request.accept with
  | none => s
  | some value => s.asyncWrite value

/-- The context takes the task that has waited longest. -/
def poll (s : RestSession) (hostSet : Bool) : RestSession × List (RestAction Msg) :=
  match s.tasks with
  | [] => (s, [])
  | .enqueue request :: rest =>
    ({ s with tasks := rest, messageQueue := s.messageQueue ++ [request] }, [])
  | .run :: rest =>
    if hostSet then ({ s with tasks := rest, run := some .resolving }, [])
    else ({ s with tasks := rest }, [.closeSessionFast])

/-- `RequestLoop`, up to its first suspension; the session is not closed when there is no
request. -/
def requestLoop (s : RestSession) : RestSession × List (RestAction Msg) :=
  match s.messageQueue with
  | [] => ({ s with run := none }, [])
  | request :: rest =>
    ({ s with messageQueue := rest, run := some .writing }, [.write request])

/-- `Run` and `RequestLoop`, from one suspension to the next. -/
def resume (s : RestSession) : RestSession × List (RestAction Msg) :=
  match s.run with
  | none => (s, [])
  | some .resolving => ({ s with run := some .connecting }, [])
  | some .connecting => ({ s with run := some .handshaking }, [])
  | some .handshaking => s.requestLoop
  | some .writing => ({ s with run := some .reading }, [])
  | some .reading => (s, [])
  | some .notifying => ({ s with run := none }, [.onDataEnqueued, .closeSessionFast])

/-- An exception of the first two operations is only logged. -/
def fail (s : RestSession) : RestSession × List (RestAction Msg) :=
  match s.run with
  | none => (s, [])
  | some .resolving => ({ s with run := none }, [])
  | some .connecting => ({ s with run := none }, [])
  | some .handshaking => ({ s with run := none }, [.closeSessionFast])
  | some .writing => ({ s with run := none }, [.closeSessionFast])
  | some .reading => ({ s with run := none }, [.closeSessionFast])
  | some .notifying => (s, [])

def step (s : RestSession) : RestEvent Msg → RestSession × List (RestAction Msg)
  | .poll hostSet => s.poll hostSet
  | .done => s.resume
  | .failed => s.fail
  | .response body => ({ s with run := some .notifying }, [.enqueue body])

/-- The context runs one handler at a time. -/
def Enabled (s : RestSession) : RestEvent Msg → Prop
  | .poll _ => s.tasks ≠ [] ∧ s.run ≠ some .notifying
  | .done => s.run ≠ none ∧ s.run ≠ some .reading
  | .failed => s.run ≠ none ∧ s.run ≠ some .notifying
  | .response _ => s.run = some .reading

end RestSession

/-- The session that `RequestNewSnapshot` of the spot class leaves to its `io_context`: it is not
started. -/
def Spot.requestNewSnapshot (pair : TradingPair) : RestSession :=
  RestSession.send {} (Spot.snapshotRequest pair)

/-- The same of the futures class. -/
def Futures.requestNewSnapshot (pair : TradingPair) : RestSession :=
  (RestSession.send {} (Futures.snapshotRequest pair)).start

/-! ### The synchronisation with its requests -/

/-- The class, its listener, and the sessions. -/
structure SnapshotLoop (K Msg Diff : Type) where
  sync : OrderBookSync K K Diff := {}
  /-- the coroutines `RequestNewSnapshot` that have been spawned and have not run -/
  requests : List TradingPair := []
  sessions : List RestSession := []
  listener : ListenerState Msg := {}
  /-- `trading_pair_` of the listener -/
  tradingPair : TradingPair := .kCount
  /-- the calls of `ProcessSnapshot` that have been spawned and have not run -/
  snapshots : List (OrderBookSnapshotEvent K K) := []

inductive LoopEvent (Msg Diff : Type)
  /-- the strand runs `ProcessDiff` -/
  | processDiff (diff : Diff)
  /-- a thread runs `RequestNewSnapshot` -/
  | requestNewSnapshot
  /-- something happens in a session -/
  | session (i : ℕ) (e : RestEvent Msg)
  /-- the strand of the listener starts a call of `ProcessQueue` -/
  | start
  /-- the call goes on -/
  | processQueue
  /-- the strand runs `ProcessSnapshot` -/
  | processSnapshot

inductive LoopAction (K Msg Diff : Type)
  | sync (effect : Effect K K Diff)
  | session (action : RestAction Msg)

/-- What a session does to the queue and to the strand of the listener. -/
def afterSession (listener : ListenerState Msg) : RestAction Msg → ListenerState Msg
  | .write _ => listener
  | .enqueue body => { listener with queue := listener.queue ++ [body] }
  | .onDataEnqueued => { listener with pending := listener.pending + 1 }
  | .closeSessionFast => listener

/-- The pair of a request. -/
def Effect.request? : Effect K K Diff → Option TradingPair
  | .orderBook _ => none
  | .requestNewSnapshot pair => some pair

/-- `AcceptSnapshot`. -/
def accepted : ListenerAction Msg (OrderBookSnapshotEvent K K) →
    Option (OrderBookSnapshotEvent K K)
  | .dequeue _ => none
  | .forward snapshot => some snapshot

namespace SnapshotLoop

section

variable [OrderBookDiffEventInterface Diff] (checkPacketLost : UInt64 → Diff → Bool)
  (requestNewSnapshot : TradingPair → RestSession) (iterate : Msg → Option Json)
  (numbers : NumberParsers K)

/-- The strand of the listener, which sets the pair that it has at the time. -/
def listen (s : SnapshotLoop K Msg Diff) (e : ListenerEvent Msg) : SnapshotLoop K Msg Diff :=
  let r := s.listener.step (snapshotResponseListener iterate numbers s.tradingPair) e
  { s with listener := r.1, snapshots := s.snapshots ++ r.2.filterMap accepted }

def step (s : SnapshotLoop K Msg Diff) :
    LoopEvent Msg Diff → SnapshotLoop K Msg Diff × List (LoopAction K Msg Diff)
  | .processDiff diff =>
    let r := s.sync.processDiff checkPacketLost diff
    ({ s with sync := r.1, requests := s.requests ++ r.2.filterMap Effect.request? },
      r.2.map .sync)
  | .requestNewSnapshot =>
    match s.requests with
    | [] => (s, [])
    | pair :: rest =>
      ({ s with
          requests := rest
          tradingPair := pair
          sessions := s.sessions ++ [requestNewSnapshot pair] }, [])
  | .session i e =>
    match s.sessions[i]? with
    | none => (s, [])
    | some session =>
      let r := session.step e
      ({ s with
          sessions := s.sessions.set i r.1
          listener := r.2.foldl afterSession s.listener },
        r.2.map .session)
  | .start => (s.listen iterate numbers .start, [])
  | .processQueue => (s.listen iterate numbers .processQueue, [])
  | .processSnapshot =>
    match s.snapshots with
    | [] => (s, [])
    | ptr :: rest => ({ s with sync := s.sync.processSnapshot ptr, snapshots := rest }, [])

end

def Enabled (s : SnapshotLoop K Msg Diff) : LoopEvent Msg Diff → Prop
  | .processDiff _ => True
  | .requestNewSnapshot => s.requests ≠ []
  | .session i e => ∃ session, s.sessions[i]? = some session ∧ session.Enabled e
  | .start => s.listener.Enabled .start
  | .processQueue => s.listener.Enabled .processQueue
  | .processSnapshot => s.snapshots ≠ []

end SnapshotLoop

/-- The class with its listener and its sessions, given its test for a lost packet and its
`RequestNewSnapshot`. -/
def snapshotLoop [OrderBookDiffEventInterface Diff] (checkPacketLost : UInt64 → Diff → Bool)
    (requestNewSnapshot : TradingPair → RestSession) (iterate : Msg → Option Json)
    (numbers : NumberParsers K) :
    Machine (SnapshotLoop K Msg Diff) (LoopEvent Msg Diff) (LoopAction K Msg Diff) where
  enabled := SnapshotLoop.Enabled
  step := SnapshotLoop.step checkPacketLost requestNewSnapshot iterate numbers

/-- The spot class. -/
def Spot.snapshotLoop (iterate : Msg → Option Json) (numbers : NumberParsers K) :
    Machine (SnapshotLoop K Msg (OrderBookDiffEvent K K)) (LoopEvent Msg (OrderBookDiffEvent K K))
      (LoopAction K Msg (OrderBookDiffEvent K K)) :=
  Binance.snapshotLoop Spot.checkPacketLost Spot.requestNewSnapshot iterate numbers

/-- The futures class. -/
def Futures.snapshotLoop (iterate : Msg → Option Json) (numbers : NumberParsers K) :
    Machine (SnapshotLoop K Msg (Futures.OrderBookDiffEvent K K))
      (LoopEvent Msg (Futures.OrderBookDiffEvent K K))
      (LoopAction K Msg (Futures.OrderBookDiffEvent K K)) :=
  Binance.snapshotLoop Futures.checkPacketLost Futures.requestNewSnapshot iterate numbers

end CryptobotAlgo.Aoe.Binance
