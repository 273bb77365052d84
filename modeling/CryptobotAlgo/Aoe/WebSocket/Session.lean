import CryptobotAlgo.Machine.Basic
import Mathlib.Logic.Function.Basic

/-!
# The WebSocket sessions

`AsyncWrite` posts a handler to the strand of the session, which puts a message into the queue and
spawns the coroutine of `StartWrite`.  Once the connection is made, that coroutine becomes a
`WriteLoop`; `Run` spawns one more `WriteLoop`, and the `ReadLoop`.  A `WriteLoop` takes a message,
waits, writes it, and returns when it finds the queue empty.

One thread runs the coroutines, so that what a coroutine does from one suspension to the next is one
step.  The handler that `emit` calls sets a variable of the loop that has assigned it; where this
loop has returned, the variable is gone and the write dangles, which changes no other loop here.
`dump`, which makes the text of a message, is taken not to throw; for a string that is not UTF-8 it
does, and the loop ends there.

`WebSocketSessionRW` and `WebSocketSessionW` have the same text up to what `SessionClass`
says.
-/

namespace CryptobotAlgo.Aoe.WebSocket

variable {M : Type}

/-- What the session classes do in their own ways. -/
structure SessionClass where
  /-- what `Run` stores in `session_ready_` -/
  readyAfterRun : Bool
  /-- a `WriteLoop` that finds the queue empty sets `write_done_promise_` -/
  doneOnEmpty : Bool
  /-- received data goes to the response queue, and `OnDataEnqueued` is called -/
  delivers : Bool
  /-- `StopAsync` emits the cancellation -/
  stopEmits : Bool
  deriving DecidableEq, Repr

def WebSocketSessionRW : SessionClass := ⟨true, true, true, true⟩

def WebSocketSessionW : SessionClass := ⟨false, false, false, false⟩

/-- Where `Run` is suspended. -/
inductive RunPc
  | spawned
  | asyncResolve
  | asyncConnect
  | sslHandshake
  | asyncHandshake
  /-- `Run` has returned, after it has spawned the loops or after an error -/
  | returned (connected : Bool)
  deriving DecidableEq, Repr

/-- Where a coroutine other than `Run` is suspended. -/
inductive Coroutine (M : Type)
  /-- that of `StartWrite`, not started yet -/
  | startWrite
  /-- a `WriteLoop` that `Run` has spawned, not started yet -/
  | writeLoop
  /-- a `WriteLoop` at its timer -/
  | timer (message : M)
  /-- a `WriteLoop` at `async_write` -/
  | asyncWrite (message : M)
  /-- the `ReadLoop`, not started yet -/
  | readLoop
  /-- the `ReadLoop` at `async_read` -/
  | asyncRead
  deriving DecidableEq, Repr

/-- A session after `StartAsync`. -/
structure Session (M : Type) where
  run : RunPc := .spawned
  sessionReady : Bool := false
  /-- the messages of the handlers on `strand_` -/
  strand : List M := []
  messageQueue : List M := []
  /-- the coroutines, by the order in which they were spawned; `none` once one has returned -/
  coroutines : ℕ → Option (Coroutine M) := fun _ => none
  spawned : ℕ := 0
  /-- the local `cancelled` of each loop -/
  cancelled : ℕ → Bool := fun _ => false
  /-- the loop whose handler is in the slot of `cancel_signal_` -/
  cancelSlot : Option ℕ := none
  /-- the coroutines of `StopAsync` that have not run -/
  stopping : ℕ := 0

/-- What the outside sees of a step. -/
inductive SessionAction (M : Type)
  /-- `async_write` is started -/
  | asyncWrite (message : M)
  /-- `async_read` is started -/
  | asyncRead
  /-- received data is put into the response queue, and the listener is told -/
  | response (data : List UInt8)
  /-- the stream is closed -/
  | close
  /-- `write_done_promise_.set_value()` -/
  | writeDone
  /-- `read_done_promise_.set_value()` -/
  | readDone
  deriving DecidableEq, Repr

/-- How an asynchronous operation ends; only a read gets data. -/
inductive Completion
  | success (data : List UInt8)
  | error
  deriving DecidableEq, Repr

namespace Session

/-- `co_spawn`. -/
def coSpawn (s : Session M) (c : Coroutine M) : Session M :=
  { s with coroutines := Function.update s.coroutines s.spawned (some c), spawned := s.spawned + 1 }

/-- The coroutine `id` is suspended at `c`. -/
def suspend (s : Session M) (id : ℕ) (c : Coroutine M) : Session M :=
  { s with coroutines := Function.update s.coroutines id (some c) }

/-- The coroutine `id` returns. -/
def finish (s : Session M) (id : ℕ) : Session M :=
  { s with coroutines := Function.update s.coroutines id none }

/-- `cancel_signal_.emit`. -/
def emit (s : Session M) : Session M :=
  match s.cancelSlot with
  | none => s
  | some id => { s with cancelled := Function.update s.cancelled id true }

/-- The first lines of a loop: `cancelled` is declared, and its handler takes the slot. -/
def assignSlot (s : Session M) (id : ℕ) : Session M :=
  { s with cancelled := Function.update s.cancelled id false, cancelSlot := some id }

/-- The handler that `AsyncWrite` posts. -/
def handler (s : Session M) (message : M) : Session M :=
  { s with messageQueue := s.messageQueue ++ [message] }.coSpawn .startWrite

/-- The `while` of `WriteLoop`, up to the timer. -/
def writeHead (cls : SessionClass) (s : Session M) (id : ℕ) : Session M × List (SessionAction M) :=
  if s.cancelled id then
    (s.finish id, [.writeDone])
  else
    match s.messageQueue with
    | [] => (s.finish id, if cls.doneOnEmpty then [.writeDone] else [])
    | message :: rest => ({ s with messageQueue := rest }.suspend id (.timer message), [])

/-- The end of `ReadLoop`, with `CloseSessionFast`. -/
def endRead (s : Session M) (id : ℕ) : Session M × List (SessionAction M) :=
  (s.emit.finish id, [.close, .readDone])

/-- The `while` of `ReadLoop`, up to the read. -/
def readHead (s : Session M) (id : ℕ) : Session M × List (SessionAction M) :=
  if s.cancelled id then s.endRead id else (s.suspend id .asyncRead, [.asyncRead])

/-- `Run` goes on after an operation that has succeeded. -/
def resumeRun (cls : SessionClass) (s : Session M) : Session M :=
  match s.run with
  | .spawned => { s with run := .asyncResolve }
  | .asyncResolve => { s with run := .asyncConnect }
  | .asyncConnect => { s with run := .sslHandshake }
  | .sslHandshake => { s with run := .asyncHandshake }
  | .asyncHandshake =>
    (({ s with run := .returned true, sessionReady := cls.readyAfterRun } : Session M).coSpawn
      .writeLoop).coSpawn .readLoop
  | .returned _ => s

/-- The coroutine `id` goes on. -/
def resume (cls : SessionClass) (s : Session M) (id : ℕ) (completion : Completion) :
    Session M × List (SessionAction M) :=
  match s.coroutines id with
  | none => (s, [])
  | some .startWrite =>
    if !s.sessionReady then (s.finish id, []) else (s.assignSlot id).writeHead cls id
  | some .writeLoop => (s.assignSlot id).writeHead cls id
  | some (.timer message) => (s.suspend id (.asyncWrite message), [.asyncWrite message])
  | some (.asyncWrite _) =>
    match completion with
    | .error => (s.finish id, [.writeDone])
    | .success _ => s.writeHead cls id
  | some .readLoop => (s.assignSlot id).readHead id
  | some .asyncRead =>
    match completion with
    | .error => s.endRead id
    | .success data =>
      let responses := if cls.delivers && 0 < data.length then [.response data] else []
      ((s.readHead id).1, responses ++ (s.readHead id).2)

end Session

/-- A step of the callers or of the thread. -/
inductive SessionEvent (M : Type)
  /-- `AsyncWrite(message)` is called -/
  | asyncWrite (message : M)
  /-- the strand runs its first handler -/
  | runHandler
  /-- the operation that `Run` awaits ends -/
  | resumeRun (ok : Bool)
  /-- the operation that a coroutine awaits ends, or the coroutine starts -/
  | resume (id : ℕ) (completion : Completion)
  /-- `StopAsync()` is called -/
  | stopAsync
  /-- a coroutine of `StopAsync` runs -/
  | runStop
  deriving DecidableEq, Repr

namespace Session

def step (cls : SessionClass) (s : Session M) :
    SessionEvent M → Session M × List (SessionAction M)
  | .asyncWrite message => ({ s with strand := s.strand ++ [message] }, [])
  | .runHandler =>
    match s.strand with
    | [] => (s, [])
    | message :: rest => ({ s with strand := rest }.handler message, [])
  | .resumeRun true => (s.resumeRun cls, [])
  | .resumeRun false => ({ s with run := .returned false }, [])
  | .resume id completion => s.resume cls id completion
  | .stopAsync => (if cls.stopEmits then { s with stopping := s.stopping + 1 } else s, [])
  | .runStop => ({ s with stopping := s.stopping - 1 }.emit, [])

/-- What is pending may happen; `Run` does not fail before its first operation. -/
def Enabled (s : Session M) : SessionEvent M → Prop
  | .asyncWrite _ => True
  | .runHandler => s.strand ≠ []
  | .resumeRun ok => (∀ connected, s.run ≠ .returned connected) ∧ (s.run = .spawned → ok = true)
  | .resume id _ => s.coroutines id ≠ none
  | .stopAsync => True
  | .runStop => s.stopping ≠ 0

instance [DecidableEq M] (s : Session M) (e : SessionEvent M) : Decidable (s.Enabled e) :=
  match e with
  | .asyncWrite _ | .stopAsync => isTrue trivial
  | .runHandler => inferInstanceAs (Decidable (s.strand ≠ []))
  | .resumeRun ok => inferInstanceAs
    (Decidable ((∀ connected, s.run ≠ .returned connected) ∧ (s.run = .spawned → ok = true)))
  | .resume id _ => inferInstanceAs (Decidable (s.coroutines id ≠ none))
  | .runStop => inferInstanceAs (Decidable (s.stopping ≠ 0))

end Session

/-- A session, with calls from any number of threads. -/
def sessionMachine (M : Type) (cls : SessionClass) :
    Machine (Session M) (SessionEvent M) (SessionAction M) where
  enabled := Session.Enabled
  step := Session.step cls

instance [DecidableEq M] (cls : SessionClass) (s : Session M) (e : SessionEvent M) :
    Decidable ((sessionMachine M cls).enabled s e) :=
  inferInstanceAs (Decidable (s.Enabled e))

end CryptobotAlgo.Aoe.WebSocket
