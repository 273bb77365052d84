import CryptobotAlgo.Aoe.ResponseQueueListener

/-!
# The listeners leave nothing in their queue

A call of `ProcessQueue` may drain the queue, or return at a message that cannot be parsed and leave
the rest to later calls.  Each message comes with a call of its own, and a call that finds the queue
non-empty takes a message, so that the messages never outnumber the calls that have not looked at
the queue yet (`ListenerInv.bounded`).

`listener_drains` is the result for any listener and any run.
-/

namespace CryptobotAlgo.Aoe

variable {Msg Doc Event : Type}

/-- The messages that were put into the queue. -/
def enqueued (es : List (ListenerEvent Msg)) : List Msg :=
  es.filterMap fun
    | .enqueue msg => some msg
    | _ => none

/-- The messages that were taken out of it. -/
def dequeued (actions : List (ListenerAction Msg Event)) : List Msg :=
  actions.filterMap fun
    | .dequeue msg => some msg
    | .forward _ => none

/-- The events that were passed on. -/
def forwarded (actions : List (ListenerAction Msg Event)) : List Event :=
  actions.filterMap fun
    | .forward event => some event
    | .dequeue _ => none

/-- The event of a message that can be parsed. -/
def ResponseQueueListener.parse (listener : ResponseQueueListener Msg Doc Event) (msg : Msg) :
    Option Event :=
  (listener.iterate msg).bind listener.parseAndCreate

/-- The calls that run: one or none. -/
def ListenerState.runningCalls (s : ListenerState Msg) : ℕ := if s.running.isSome then 1 else 0

/-- The calls that run and have not looked at the queue: one or none. -/
def ListenerState.enteredCalls (s : ListenerState Msg) : ℕ :=
  match s.running with
  | some .entered => 1
  | none | some .again | some (.dequeued _) => 0

/-- The messages without a call: one or none. -/
def ListenerState.unnotified (s : ListenerState Msg) : ℕ := if s.notifying then 1 else 0

/-- What the call that runs will pass on next. -/
def ListenerState.inHand (listener : ResponseQueueListener Msg Doc Event) (s : ListenerState Msg) :
    List Event :=
  match s.running with
  | some (.dequeued msg) => (listener.parse msg).toList
  | none | some .entered | some .again => []

/-- The messages in the queue have calls, and those taken out of it were dealt with in order. -/
structure ListenerInv (listener : ResponseQueueListener Msg Doc Event)
    (es : List (ListenerEvent Msg)) (s : ListenerState Msg)
    (actions : List (ListenerAction Msg Event)) : Prop where
  bounded : s.queue.length ≤ s.pending + s.enteredCalls + s.unnotified
  inOrder : dequeued actions ++ s.queue = enqueued es
  passedOn : forwarded actions ++ s.inHand listener = (dequeued actions).filterMap listener.parse

section Step

variable {listener : ResponseQueueListener Msg Doc Event} {es : List (ListenerEvent Msg)}
  {s : ListenerState Msg} {actions : List (ListenerAction Msg Event)}

theorem enqueued_append (es fs : List (ListenerEvent Msg)) :
    enqueued (es ++ fs) = enqueued es ++ enqueued fs :=
  List.filterMap_append

theorem dequeued_append (actions actions' : List (ListenerAction Msg Event)) :
    dequeued (actions ++ actions') = dequeued actions ++ dequeued actions' :=
  List.filterMap_append

theorem forwarded_append (actions actions' : List (ListenerAction Msg Event)) :
    forwarded (actions ++ actions') = forwarded actions ++ forwarded actions' :=
  List.filterMap_append

theorem ListenerInv.new (listener : ResponseQueueListener Msg Doc Event) :
    ListenerInv listener [] {} [] :=
  ⟨Nat.le_refl 0, rfl, rfl⟩

theorem enteredCalls_le_one (s : ListenerState Msg) : s.enteredCalls ≤ 1 := by
  unfold ListenerState.enteredCalls
  split <;> omega

theorem enteredCalls_le_runningCalls (s : ListenerState Msg) :
    s.enteredCalls ≤ s.runningCalls := by
  unfold ListenerState.enteredCalls ListenerState.runningCalls
  cases s.running with
  | none => exact Nat.le_refl 0
  | some call =>
    cases call with
    | entered => exact Nat.le_refl 1
    | dequeued msg => exact Nat.zero_le 1
    | again => exact Nat.zero_le 1

theorem enteredCalls_of_ne (h : s.running ≠ some .entered) : s.enteredCalls = 0 := by
  unfold ListenerState.enteredCalls
  split
  · exact absurd ‹_› h
  · rfl
  · rfl
  · rfl

theorem inHand_of_ne (h : ∀ msg, s.running ≠ some (.dequeued msg)) : s.inHand listener = [] := by
  unfold ListenerState.inHand
  split
  · exact absurd ‹_› (h _)
  · rfl
  · rfl
  · rfl

/-- A step that neither fills nor drains the queue. -/
theorem ListenerInv.of_queue_eq (h : ListenerInv listener es s actions) {s' : ListenerState Msg}
    {e : ListenerEvent Msg} (he : enqueued [e] = []) (hqueue : s'.queue = s.queue)
    (hhand : s'.inHand listener = s.inHand listener)
    (hbounded : s.queue.length ≤ s'.pending + s'.enteredCalls + s'.unnotified) :
    ListenerInv listener (es ++ [e]) s' (actions ++ []) where
  bounded := hqueue ▸ hbounded
  inOrder := by rw [List.append_nil, hqueue, h.inOrder, enqueued_append, he, List.append_nil]
  passedOn := by rw [List.append_nil, hhand, h.passedOn]

/-- A call at the condition of the `while` takes the next message, or finds none. -/
theorem ListenerInv.tryDequeue (h : ListenerInv listener es s actions)
    {next : ListenerState Msg × List (ListenerAction Msg Event)} (hnext : s.tryDequeue = next)
    (hhand : s.inHand listener = []) :
    ListenerInv listener (es ++ [.processQueue]) next.1 (actions ++ next.2) := by
  subst hnext
  unfold ListenerState.tryDequeue
  split
  · rename_i hmessages
    refine h.of_queue_eq rfl rfl hhand.symm ?_
    rw [hmessages]
    exact Nat.zero_le _
  · rename_i msg rest hmessages
    have hbounded := h.bounded
    have hinOrder := h.inOrder
    rw [hmessages] at hbounded hinOrder
    refine ⟨?_, ?_, ?_⟩
    · show rest.length ≤ s.pending + 0 + s.unnotified
      have hentered := enteredCalls_le_one s
      rw [List.length_cons] at hbounded
      omega
    · rw [dequeued_append, enqueued_append, ← hinOrder, List.append_assoc]
      exact (List.append_nil _).symm
    · have hsingle : [msg].filterMap listener.parse = (listener.parse msg).toList := by
        rw [List.filterMap_cons]
        cases listener.parse msg with
        | none => rfl
        | some event => rfl
      have hpassedOn := h.passedOn
      rw [hhand, List.append_nil] at hpassedOn
      rw [dequeued_append, forwarded_append, List.filterMap_append, ← hpassedOn]
      show forwarded actions ++ [] ++ (listener.parse msg).toList =
        forwarded actions ++ [msg].filterMap listener.parse
      rw [List.append_nil, hsingle]

/-- A message that was dequeued is passed on, or the call returns. -/
theorem ListenerInv.process (h : ListenerInv listener es s actions) {msg : Msg}
    (hrunning : s.running = some (.dequeued msg)) :
    ListenerInv listener (es ++ [.processQueue]) (s.processQueue listener).1
      (actions ++ (s.processQueue listener).2) := by
  have hbounded : s.queue.length ≤ s.pending + 0 + s.unnotified := by
    rw [← enteredCalls_of_ne (s := s) (by rw [hrunning]; exact nofun)]
    exact h.bounded
  have hhand : s.inHand listener = (listener.parse msg).toList := by
    unfold ListenerState.inHand
    rw [hrunning]
  unfold ResponseQueueListener.parse at hhand
  unfold ListenerState.processQueue
  rw [hrunning]
  dsimp only
  cases hdoc : listener.iterate msg with
  | none =>
    rw [hdoc] at hhand
    exact h.of_queue_eq rfl rfl hhand.symm hbounded
  | some doc =>
    rw [hdoc, Option.bind_some] at hhand
    dsimp only
    cases hparsed : listener.parseAndCreate doc with
    | none =>
      rw [hparsed] at hhand
      exact h.of_queue_eq rfl rfl hhand.symm hbounded
    | some event =>
      rw [hparsed] at hhand
      have hpassedOn := h.passedOn
      rw [hhand] at hpassedOn
      refine ⟨hbounded, ?_, ?_⟩
      · rw [dequeued_append, enqueued_append, ← h.inOrder]
        show dequeued actions ++ [] ++ s.queue = dequeued actions ++ s.queue ++ []
        rw [List.append_nil, List.append_nil]
      · rw [dequeued_append, forwarded_append]
        show forwarded actions ++ [event] ++ [] = (dequeued actions ++ []).filterMap listener.parse
        rw [List.append_nil, List.append_nil]
        exact hpassedOn

theorem ListenerInv.step (h : ListenerInv listener es s actions) {e : ListenerEvent Msg}
    (he : s.Enabled e) :
    ListenerInv listener (es ++ [e]) (s.step listener e).1 (actions ++ (s.step listener e).2) := by
  have hbounded := h.bounded
  cases e with
  | enqueue msg =>
    refine ⟨?_, ?_, ?_⟩
    · have hnone : s.unnotified = 0 := if_neg (by rw [he]; exact Bool.false_ne_true)
      show (s.queue ++ [msg]).length ≤ s.pending + s.enteredCalls + 1
      rw [List.length_append, List.length_singleton]
      omega
    · show dequeued (actions ++ []) ++ (s.queue ++ [msg]) = enqueued (es ++ [.enqueue msg])
      rw [List.append_nil, ← List.append_assoc, h.inOrder, enqueued_append]
      rfl
    · show forwarded (actions ++ []) ++ s.inHand listener = (dequeued (actions ++ [])).filterMap _
      rw [List.append_nil]
      exact h.passedOn
  | onDataEnqueued =>
    refine h.of_queue_eq rfl rfl rfl ?_
    have hone : s.unnotified = 1 := if_pos he
    show s.queue.length ≤ s.pending + 1 + s.enteredCalls + 0
    omega
  | start =>
    obtain ⟨hpending, hrunning⟩ := he
    have hidle : s.inHand listener = [] := inHand_of_ne (by rw [hrunning]; exact nofun)
    refine h.of_queue_eq rfl rfl hidle.symm ?_
    have hcalls : s.enteredCalls = 0 := enteredCalls_of_ne (by rw [hrunning]; exact nofun)
    show s.queue.length ≤ s.pending - 1 + 1 + s.unnotified
    omega
  | processQueue =>
    show ListenerInv listener _ (s.processQueue listener).1 (actions ++ (s.processQueue listener).2)
    cases hrunning : s.running with
    | none => exact absurd hrunning he
    | some call =>
      cases call with
      | entered =>
        refine h.tryDequeue ?_ (inHand_of_ne (by rw [hrunning]; exact nofun))
        unfold ListenerState.processQueue
        rw [hrunning]
      | dequeued msg => exact h.process hrunning
      | again =>
        refine h.tryDequeue ?_ (inHand_of_ne (by rw [hrunning]; exact nofun))
        unfold ListenerState.processQueue
        rw [hrunning]

end Step

/-! ### Runs -/

theorem ListenerInv.final {listener : ResponseQueueListener Msg Doc Event}
    {es : List (ListenerEvent Msg)} (h : (listenerMachine listener).Legal {} es) :
    ListenerInv listener es ((listenerMachine listener).final {} es)
      ((listenerMachine listener).trace {} es) :=
  (listenerMachine listener).invariant_events (P := fun es s actions =>
    ListenerInv listener es s actions) (fun _ _ _ _ he hinv => hinv.step he) (.new listener) h

/-- The reader is idle, and no call waits or runs. -/
structure ListenerState.Idle (s : ListenerState Msg) : Prop where
  notifying : s.notifying = false
  pending : s.pending = 0
  running : s.running = none

/-- After the run the queue holds no more messages than there are calls, and one that has no call
yet.  The messages were dequeued in the order of arrival, each once, and those that can be parsed
were passed on in this order; when nothing is under way, this has happened to all of them. -/
structure Drains (listener : ResponseQueueListener Msg Doc Event) (es : List (ListenerEvent Msg))
    (s : ListenerState Msg) (actions : List (ListenerAction Msg Event)) : Prop where
  bounded : s.queue.length ≤ s.pending + s.runningCalls + s.unnotified
  inOrder : dequeued actions ++ s.queue = enqueued es
  passedOn : forwarded actions ++ s.inHand listener = (dequeued actions).filterMap listener.parse
  idle : s.Idle → s.queue = [] ∧ dequeued actions = enqueued es ∧
    forwarded actions = (enqueued es).filterMap listener.parse

theorem ListenerInv.drains {listener : ResponseQueueListener Msg Doc Event}
    {es : List (ListenerEvent Msg)} {s : ListenerState Msg}
    {actions : List (ListenerAction Msg Event)} (h : ListenerInv listener es s actions) :
    Drains listener es s actions := by
  have hbounded := h.bounded
  have hcalls := enteredCalls_le_runningCalls s
  refine ⟨by omega, h.inOrder, h.passedOn, fun hidle => ?_⟩
  have hrunning : s.enteredCalls = 0 := enteredCalls_of_ne (by rw [hidle.running]; exact nofun)
  have hnotified : s.unnotified = 0 :=
    if_neg (by rw [hidle.notifying]; exact Bool.false_ne_true)
  have hempty : s.queue = [] := by
    rw [hidle.pending, hrunning, hnotified] at hbounded
    exact List.length_eq_zero_iff.mp (Nat.le_zero.mp hbounded)
  have hall : dequeued actions = enqueued es := by
    rw [← h.inOrder, hempty, List.append_nil]
  have hhand : s.inHand listener = [] := inHand_of_ne (by rw [hidle.running]; exact nofun)
  refine ⟨hempty, hall, ?_⟩
  rw [← hall, ← h.passedOn, hhand, List.append_nil]

theorem drains_of_legal {listener : ResponseQueueListener Msg Doc Event}
    {es : List (ListenerEvent Msg)} (h : (listenerMachine listener).Legal {} es) :
    Drains listener es ((listenerMachine listener).final {} es)
      ((listenerMachine listener).trace {} es) :=
  (ListenerInv.final h).drains

/-- **No message is left behind**, whatever the parsers reject. -/
theorem listeners_drain {Price Qty : Type} (iterate : List UInt8 → Option Doc)
    (bybit : Doc → Option (Bybit.OrderBookEvent Price Qty))
    (spot : Doc → Option (Binance.OrderBookDiffEvent Price Qty))
    (futures : Doc → Option (Binance.Futures.OrderBookDiffEvent Price Qty))
    (es : List (ListenerEvent (List UInt8))) :
    let orderBook := Bybit.orderBookResponseListener iterate bybit
    let spotDiff := Binance.diffResponseListener iterate spot
    let futuresDiff := Binance.Futures.diffResponseListener iterate futures
    ((listenerMachine orderBook).Legal {} es → Drains orderBook es
        ((listenerMachine orderBook).final {} es) ((listenerMachine orderBook).trace {} es)) ∧
      ((listenerMachine spotDiff).Legal {} es → Drains spotDiff es
        ((listenerMachine spotDiff).final {} es) ((listenerMachine spotDiff).trace {} es)) ∧
      ((listenerMachine futuresDiff).Legal {} es → Drains futuresDiff es
        ((listenerMachine futuresDiff).final {} es) ((listenerMachine futuresDiff).trace {} es)) :=
  ⟨drains_of_legal, drains_of_legal, drains_of_legal⟩

/-- The second message cannot be parsed; the call of the first one finds it, and returns. -/
def badMessage : List (ListenerEvent (List UInt8)) :=
  [.enqueue [1], .onDataEnqueued, .enqueue [], .start, .processQueue, .processQueue, .processQueue,
    .onDataEnqueued, .enqueue [2], .processQueue, .onDataEnqueued, .start, .processQueue,
    .processQueue, .processQueue, .start, .processQueue]

/-- Parses the first byte. -/
def parseByte (bytes : List UInt8) : Option (Bybit.OrderBookEvent ℕ ℕ) :=
  bytes.head?.map fun byte => { updateId := byte.toUInt64 }

theorem listeners_drain_badMessage :
    forwarded ((listenerMachine (Bybit.orderBookResponseListener some parseByte)).trace {}
      badMessage) = [{ updateId := 1 }, { updateId := 2 }] := by
  have hdrains := (listeners_drain some parseByte (fun _ => none) (fun _ => none) badMessage).1
    (by decide)
  exact (hdrains.idle ⟨by decide, by decide, by decide⟩).2.2.trans (by decide)

end CryptobotAlgo.Aoe
