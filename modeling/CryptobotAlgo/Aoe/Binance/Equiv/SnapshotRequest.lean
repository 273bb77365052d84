import CryptobotAlgo.Aoe.Binance.Equiv.Tracks
import CryptobotAlgo.Aoe.Binance.SnapshotRequest
import CryptobotAlgo.Aoe.Equiv.ResponseQueueListener

/-!
# What becomes of a request

A request turns into a session, into the message that the session puts into the queue, and into a
snapshot, or it gets lost on the way.  It never turns into more than one of these: `credit` counts
what may still become a snapshot, and no step makes more of it than it spawns requests
(`credit_step`).
-/

namespace CryptobotAlgo.Aoe.Binance

open Aos Feed OrderBookSync

variable {K Msg Diff : Type}

/-! ### A session answers once at most -/

def RestTask.isRun : RestTask → Bool
  | .enqueue _ => false
  | .run => true

/-- The bodies that a session has put into the queue. -/
def bodies (out : List (RestAction Msg)) : List Msg :=
  out.filterMap fun
    | .enqueue body => some body
    | .write _ | .onDataEnqueued | .closeSessionFast => none

/-- How often it has called the listener. -/
def notifications (out : List (RestAction Msg)) : ℕ :=
  out.countP fun
    | .onDataEnqueued => true
    | .enqueue _ | .write _ | .closeSessionFast => false

namespace RestSession

/-- `Run` has been spawned once at most. -/
def OneRun (s : RestSession) : Prop := s.tasks.countP RestTask.isRun + s.run.toList.length ≤ 1

/-- There is a request that has not been written. -/
def hasRequest (s : RestSession) : Bool :=
  !s.messageQueue.isEmpty || s.tasks.any fun task => !task.isRun

/-- The session may still put a body into the queue. -/
def mayAnswer (s : RestSession) : Bool :=
  match s.run with
  | none => s.tasks.any RestTask.isRun && s.hasRequest
  | some .resolving | some .connecting | some .handshaking => s.hasRequest
  | some .writing | some .reading => true
  | some .notifying => false

/-- The bodies that the listener has not been called for: one or none. -/
def unnotified (s : RestSession) : ℕ := if s.run = some .notifying then 1 else 0

/-- What a step does. -/
structure Stepped (s : RestSession) (next : RestSession × List (RestAction Msg)) : Prop where
  oneRun : next.1.OneRun
  answers : (bodies next.2).length + next.1.mayAnswer.toNat ≤ s.mayAnswer.toNat
  notified : (bodies next.2).length + s.unnotified = notifications next.2 + next.1.unnotified
  written : ∀ request, .write request ∈ next.2 → s.mayAnswer = true

variable {s : RestSession}

/-- Once `Run` has begun, it is not spawned again. -/
theorem any_isRun_eq_false (h : s.OneRun) {point : RunPoint} (hrun : s.run = some point) :
    s.tasks.any RestTask.isRun = false := by
  unfold OneRun at h
  rw [hrun, Option.toList_some, List.length_singleton] at h
  rw [List.any_eq_false]
  intro task htask htrue
  have hpos := List.countP_pos_iff.mpr ⟨task, htask, htrue⟩
  omega

/-- Once `Run` has ended, no answer comes. -/
theorem mayAnswer_of_ended (h : s.OneRun) {point : RunPoint} (hrun : s.run = some point) :
    mayAnswer { s with run := none } = false := by
  unfold mayAnswer
  dsimp only
  rw [any_isRun_eq_false h hrun, Bool.false_and]

theorem OneRun.of_run (h : s.OneRun) {point : RunPoint} (hrun : s.run = some point)
    (run : Option RunPoint) : OneRun { s with run } := by
  unfold OneRun at h ⊢
  rw [hrun, Option.toList_some, List.length_singleton] at h
  have hone : run.toList.length ≤ 1 := Option.length_toList_le
  show s.tasks.countP RestTask.isRun + run.toList.length ≤ 1
  omega

theorem unnotified_of_ne (h : s.run ≠ some .notifying) : s.unnotified = 0 := if_neg h

/-- A step at which `Run` ends without an answer. -/
theorem Stepped.of_ended (h : s.OneRun) {point : RunPoint} (hrun : s.run = some point)
    (hpoint : s.run ≠ some .notifying) {out : List (RestAction Msg)}
    (hout : out = [] ∨ out = [.closeSessionFast]) : Stepped s ({ s with run := none }, out) where
  oneRun := h.of_run hrun none
  answers := by
    rw [mayAnswer_of_ended h hrun]
    obtain rfl | rfl := hout
    · exact Nat.zero_le _
    · exact Nat.zero_le _
  notified := by
    rw [unnotified_of_ne hpoint]
    obtain rfl | rfl := hout
    · rfl
    · rfl
  written := by
    intro request hmem
    obtain rfl | rfl := hout
    · cases hmem
    · cases List.mem_singleton.mp hmem

/-- A step to another point that keeps the chance of an answer. -/
theorem Stepped.of_point (h : s.OneRun) {point point' : RunPoint} (hrun : s.run = some point)
    (hpoint : s.run ≠ some .notifying) (hpoint' : point' ≠ .notifying)
    (hanswer : mayAnswer { s with run := some point' } = s.mayAnswer) :
    Stepped s ({ s with run := some point' }, ([] : List (RestAction Msg))) where
  oneRun := h.of_run hrun _
  answers := by
    rw [hanswer]
    exact Nat.le_of_eq (Nat.zero_add _)
  notified := by
    have hnext : unnotified { s with run := some point' } = 0 :=
      unnotified_of_ne fun h => hpoint' (Option.some.inj h)
    rw [unnotified_of_ne hpoint, hnext]
    rfl
  written := nofun

/-- The request goes from the tasks to the queue. -/
theorem mayAnswer_enqueue {request : HttpRequest} {rest : List RestTask}
    (htasks : s.tasks = .enqueue request :: rest) :
    mayAnswer { s with tasks := rest, messageQueue := s.messageQueue ++ [request] } =
      s.mayAnswer := by
  have hbefore : s.hasRequest = true := by
    unfold hasRequest
    rw [htasks]
    exact Bool.or_true _
  have hafter : hasRequest
      { s with tasks := rest, messageQueue := s.messageQueue ++ [request] } = true := by
    unfold hasRequest
    simp
  unfold mayAnswer
  rw [hbefore, hafter, htasks]
  rfl

theorem stepped_poll_enqueue (h : s.OneRun) {request : HttpRequest} {rest : List RestTask}
    (htasks : s.tasks = .enqueue request :: rest) :
    Stepped s ({ s with tasks := rest, messageQueue := s.messageQueue ++ [request] },
      ([] : List (RestAction Msg))) := by
  refine ⟨?_, ?_, rfl, nofun⟩
  · unfold OneRun at h ⊢
    rw [htasks, List.countP_cons_of_neg Bool.false_ne_true] at h
    exact h
  · rw [mayAnswer_enqueue htasks]
    exact Nat.le_of_eq (Nat.zero_add _)

/-- While `Run` waits it has not begun, and does not wait twice. -/
theorem run_eq_none (h : s.OneRun) {rest : List RestTask} (htasks : s.tasks = .run :: rest) :
    s.run = none ∧ rest.countP RestTask.isRun = 0 := by
  unfold OneRun at h
  rw [htasks, List.countP_cons_of_pos rfl] at h
  refine ⟨?_, by omega⟩
  rw [← Option.toList_eq_nil_iff, ← List.length_eq_zero_iff]
  omega

/-- `Run` begins. -/
theorem mayAnswer_run (h : s.OneRun) {rest : List RestTask} (htasks : s.tasks = .run :: rest) :
    mayAnswer { s with tasks := rest, run := some .resolving } = s.mayAnswer := by
  obtain ⟨hrun, -⟩ := run_eq_none h htasks
  have hrequest : s.hasRequest = hasRequest { s with tasks := rest, run := some .resolving } := by
    unfold hasRequest
    rw [htasks]
    rfl
  unfold mayAnswer
  rw [hrun, hrequest, htasks]
  exact (Bool.true_and _).symm

theorem stepped_poll_run (h : s.OneRun) {rest : List RestTask} (htasks : s.tasks = .run :: rest)
    (hostSet : Bool) : Stepped s (s.poll hostSet : RestSession × List (RestAction Msg)) := by
  obtain ⟨hrun, hrest⟩ := run_eq_none h htasks
  unfold poll
  rw [htasks]
  dsimp only
  cases hostSet with
  | true =>
    rw [if_pos rfl]
    refine ⟨?_, ?_, ?_, nofun⟩
    · show rest.countP RestTask.isRun + 1 ≤ 1
      omega
    · rw [mayAnswer_run h htasks]
      exact Nat.le_of_eq (Nat.zero_add _)
    · rw [unnotified_of_ne (by rw [hrun]; exact nofun)]
      rfl
  | false =>
    rw [if_neg Bool.false_ne_true]
    refine ⟨?_, ?_, rfl, ?_⟩
    · show rest.countP RestTask.isRun + s.run.toList.length ≤ 1
      rw [hrun, hrest]
      exact Nat.zero_le 1
    · have hany : rest.any RestTask.isRun = false :=
        List.any_eq_false.mpr (List.countP_eq_zero.mp hrest)
      have hnone : mayAnswer { s with tasks := rest } = false := by
        unfold mayAnswer
        dsimp only
        rw [hrun]
        dsimp only
        rw [hany, Bool.false_and]
      rw [hnone]
      exact Nat.zero_le _
    · intro request hmem
      cases List.mem_singleton.mp hmem

theorem stepped_poll (h : s.OneRun) (hostSet : Bool) :
    Stepped s (s.poll hostSet : RestSession × List (RestAction Msg)) := by
  cases htasks : s.tasks with
  | nil =>
    unfold poll
    rw [htasks]
    exact ⟨h, Nat.le_of_eq (Nat.zero_add _), rfl, nofun⟩
  | cons task rest =>
    cases task with
    | enqueue request =>
      unfold poll
      rw [htasks]
      exact stepped_poll_enqueue h htasks
    | run => exact stepped_poll_run h htasks hostSet

/-- The request is taken from the queue and written, or there is none. -/
theorem stepped_requestLoop (h : s.OneRun) (hrun : s.run = some .handshaking) :
    Stepped s (s.requestLoop : RestSession × List (RestAction Msg)) := by
  have hpoint : s.run ≠ some .notifying := by
    rw [hrun]
    exact nofun
  unfold requestLoop
  cases hqueue : s.messageQueue with
  | nil =>
    show Stepped s ({ tasks := s.tasks, messageQueue := [], run := none }, [])
    rw [← hqueue]
    exact .of_ended h hrun hpoint (.inl rfl)
  | cons request rest =>
    have hanswer : s.mayAnswer = true := by
      unfold mayAnswer hasRequest
      rw [hrun, hqueue]
      rfl
    refine ⟨h.of_run hrun _, ?_, ?_, fun _ _ => hanswer⟩
    · rw [hanswer]
      exact Nat.le_refl 1
    · rw [unnotified_of_ne hpoint]
      rfl

theorem stepped_resume (h : s.OneRun) (he : s.run ≠ none ∧ s.run ≠ some .reading) :
    Stepped s (s.resume : RestSession × List (RestAction Msg)) := by
  cases hrun : s.run with
  | none => exact absurd hrun he.1
  | some point =>
    unfold resume
    rw [hrun]
    cases point with
    | resolving | connecting =>
      refine .of_point h hrun (by rw [hrun]; exact nofun) nofun ?_
      unfold mayAnswer
      rw [hrun]
      rfl
    | writing =>
      refine .of_point h hrun (by rw [hrun]; exact nofun) nofun ?_
      unfold mayAnswer
      rw [hrun]
    | handshaking => exact stepped_requestLoop h hrun
    | reading => exact absurd hrun he.2
    | notifying =>
      refine ⟨h.of_run hrun none, ?_, ?_, ?_⟩
      · rw [mayAnswer_of_ended h hrun]
        exact Nat.zero_le _
      · unfold unnotified
        rw [if_pos hrun]
        rfl
      · intro request hmem
        simp at hmem

theorem stepped_fail (h : s.OneRun) (he : s.run ≠ none ∧ s.run ≠ some .notifying) :
    Stepped s (s.fail : RestSession × List (RestAction Msg)) := by
  cases hrun : s.run with
  | none => exact absurd hrun he.1
  | some point =>
    unfold fail
    rw [hrun]
    cases point with
    | resolving | connecting => exact .of_ended h hrun he.2 (.inl rfl)
    | handshaking | writing | reading => exact .of_ended h hrun he.2 (.inr rfl)
    | notifying => exact absurd hrun he.2

theorem stepped_response (h : s.OneRun) (hrun : s.run = some .reading) (body : Msg) :
    Stepped s (s.step (.response body)) where
  oneRun := h.of_run hrun _
  answers := by
    have hanswer : s.mayAnswer = true := by
      unfold mayAnswer
      rw [hrun]
    rw [hanswer]
    exact Nat.le_refl 1
  notified := by
    rw [unnotified_of_ne (by rw [hrun]; exact nofun)]
    rfl
  written := by
    intro request hmem
    cases List.mem_singleton.mp hmem

theorem stepped_step (h : s.OneRun) {e : RestEvent Msg} (he : s.Enabled e) :
    Stepped s (s.step e) := by
  cases e with
  | poll hostSet => exact stepped_poll h hostSet
  | done => exact stepped_resume h he
  | failed => exact stepped_fail h he
  | response body => exact stepped_response h he body

/-- A session from which no answer can come keeps still. -/
theorem Stepped.silent {next : RestSession × List (RestAction Msg)} (h : s.Stepped next)
    (hsilent : s.mayAnswer = false) : next.1.mayAnswer = false ∧ bodies next.2 = [] := by
  have hanswers := h.answers
  rw [hsilent] at hanswers
  obtain ⟨hbodies, hnext⟩ := Nat.add_eq_zero_iff.mp (Nat.le_zero.mp hanswers)
  exact ⟨Bool.toNat_eq_zero.mp hnext, List.length_eq_zero_iff.mp hbodies⟩

end RestSession

/-! ### The listener deals with each message once -/

section Listener

/-- The messages that the listener has not dealt with. -/
def messages (l : ListenerState Msg) : List Msg :=
  (match l.running with
    | some (.dequeued msg) => [msg]
    | none | some .entered | some .again => []) ++ l.queue

/-- What the actions of a session do to the listener. -/
theorem foldl_afterSession (l : ListenerState Msg) (out : List (RestAction Msg)) :
    out.foldl afterSession l =
      { l with queue := l.queue ++ bodies out, pending := l.pending + notifications out } := by
  induction out generalizing l with
  | nil => rw [List.foldl_nil, bodies, List.filterMap_nil, List.append_nil]; rfl
  | cons action out ih =>
    rw [List.foldl_cons, ih]
    cases action with
    | enqueue body =>
      have hbodies : bodies (.enqueue body :: out) = [body] ++ bodies out := rfl
      rw [hbodies, ← List.append_assoc]
      rfl
    | onDataEnqueued =>
      have hcalls : notifications (.onDataEnqueued :: out) = notifications out + 1 :=
        List.countP_cons_of_pos rfl
      rw [hcalls, Nat.add_comm _ 1, ← Nat.add_assoc]
      rfl
    | write request => rfl
    | closeSessionFast => rfl

theorem messages_afterSession (l : ListenerState Msg) (out : List (RestAction Msg)) :
    messages (out.foldl afterSession l) = messages l ++ bodies out := by
  rw [foldl_afterSession]
  exact (List.append_assoc _ _ _).symm

theorem messages_start {l : ListenerState Msg} (hrunning : l.running = none) :
    messages { l with pending := l.pending - 1, running := some .entered } = messages l := by
  unfold messages
  rw [hrunning]

variable {Doc Event : Type} {listener : ResponseQueueListener Msg Doc Event} {wm : Msg → ℕ}

/-- The call that runs takes a message into its hand, or finds none. -/
theorem tryDequeue_messages {l : ListenerState Msg} (h : ∀ msg, l.running ≠ some (.dequeued msg))
    {next : ListenerState Msg × List (ListenerAction Msg Event)} (hnext : l.tryDequeue = next) :
    ((messages next.1).map wm).sum + (forwarded next.2).length ≤ ((messages l).map wm).sum := by
  subst hnext
  have hmessages : messages l = l.queue := by
    unfold messages
    split
    · exact absurd ‹_› (h _)
    · rfl
    · rfl
    · rfl
  rw [hmessages]
  unfold ListenerState.tryDequeue
  split
  · rename_i hqueue
    rw [hqueue]
    exact Nat.le_refl _
  · rename_i msg rest hqueue
    rw [hqueue]
    exact Nat.le_refl _

/-- A message that the call has in its hand is passed on once at most. -/
theorem processQueue_messages (hwm : ∀ msg, (listener.parse msg).toList.length ≤ wm msg)
    (l : ListenerState Msg) :
    ((messages (l.processQueue listener).1).map wm).sum +
      (forwarded (l.processQueue listener).2).length ≤ ((messages l).map wm).sum := by
  unfold ListenerState.processQueue
  cases hrunning : l.running with
  | none => exact Nat.le_refl _
  | some call =>
    cases call with
    | entered => exact tryDequeue_messages (by rw [hrunning]; exact nofun) rfl
    | again => exact tryDequeue_messages (by rw [hrunning]; exact nofun) rfl
    | dequeued msg =>
      have hmessages : messages l = msg :: l.queue := by
        unfold messages
        rw [hrunning]
        rfl
      have hparsed := hwm msg
      unfold ResponseQueueListener.parse at hparsed
      rw [hmessages, List.map_cons, List.sum_cons, Nat.add_comm]
      dsimp only
      cases hdoc : listener.iterate msg with
      | none => exact Nat.add_le_add_right (Nat.zero_le _) _
      | some doc =>
        rw [hdoc, Option.bind_some] at hparsed
        dsimp only
        cases hevent : listener.parseAndCreate doc with
        | none => exact Nat.add_le_add_right (Nat.zero_le _) _
        | some event =>
          rw [hevent] at hparsed
          exact Nat.add_le_add_right hparsed _

/-- What is passed on has been made by the parser. -/
theorem exists_of_mem_forwarded {l : ListenerState Msg} {event : Event}
    (h : event ∈ forwarded (l.processQueue listener).2) :
    ∃ doc, listener.parseAndCreate doc = some event := by
  unfold ListenerState.processQueue ListenerState.tryDequeue at h
  split at h
  · cases h
  · split at h <;> cases h
  · split at h <;> cases h
  · split at h
    · cases h
    · rename_i doc hdoc
      split at h
      · cases h
      · rename_i event' hevent
        obtain rfl := List.mem_singleton.mp h
        exact ⟨doc, hevent⟩

/-- Each call looks at the queue before it returns. -/
theorem bounded_processQueue {l : ListenerState Msg} {n : ℕ}
    (h : l.queue.length ≤ l.pending + l.enteredCalls + n) :
    (l.processQueue listener).1.queue.length ≤
      (l.processQueue listener).1.pending + (l.processQueue listener).1.enteredCalls + n := by
  have hdequeue : ∀ next : ListenerState Msg × List (ListenerAction Msg Event),
      l.tryDequeue = next →
        next.1.queue.length ≤ next.1.pending + next.1.enteredCalls + n := by
    rintro next rfl
    have hentered := enteredCalls_le_one l
    unfold ListenerState.tryDequeue
    split
    · rename_i hqueue
      show l.queue.length ≤ _
      rw [hqueue]
      exact Nat.zero_le _
    · rename_i msg rest hqueue
      rw [hqueue, List.length_cons] at h
      show rest.length ≤ l.pending + 0 + n
      omega
  unfold ListenerState.processQueue
  cases hrunning : l.running with
  | none => exact h
  | some call =>
    cases call with
    | entered => exact hdequeue _ rfl
    | again => exact hdequeue _ rfl
    | dequeued msg =>
      rw [enteredCalls_of_ne (by rw [hrunning]; exact nofun)] at h
      dsimp only
      cases listener.iterate msg with
      | none => exact h
      | some doc =>
        dsimp only
        cases listener.parseAndCreate doc with
        | none => exact h
        | some event => exact h

end Listener

/-! ### The credit of a state -/

section Credit

variable {wp : TradingPair → ℕ} {wm : Msg → ℕ}

/-- What may still become a snapshot, with a weight for each request and for each message. -/
def credit (wp : TradingPair → ℕ) (wm : Msg → ℕ) (s : SnapshotLoop K Msg Diff) : ℕ :=
  (s.requests.map wp).sum + (s.sessions.map fun session => session.mayAnswer.toNat).sum +
    ((messages s.listener).map wm).sum + s.snapshots.length

/-- A session that may answer counts. -/
theorem mayAnswer_of_credit_eq_zero {s : SnapshotLoop K Msg Diff} (h : credit wp wm s = 0)
    {session : RestSession} (hmem : session ∈ s.sessions) : session.mayAnswer = false := by
  unfold credit at h
  have hsessions : (s.sessions.map fun session => session.mayAnswer.toNat).sum = 0 := by omega
  rw [List.sum_eq_zero_iff_forall_eq_nat] at hsessions
  exact Bool.toNat_eq_zero.mp (hsessions _ (List.mem_map_of_mem hmem))

/-- Nothing weighs more than one, and what may become a snapshot weighs one. -/
structure Weighs (requestNewSnapshot : TradingPair → RestSession) (iterate : Msg → Option Json)
    (numbers : NumberParsers K) (wp : TradingPair → ℕ) (wm : Msg → ℕ) : Prop where
  request : ∀ pair, (requestNewSnapshot pair).mayAnswer.toNat ≤ wp pair
  request_le_one : ∀ pair, wp pair ≤ 1
  message_le_one : ∀ msg, wm msg ≤ 1
  message : ∀ pair msg,
    ((snapshotResponseListener iterate numbers pair).parse msg).toList.length ≤ wm msg

/-- The effects on the synchronisation's side. -/
def effects (out : List (LoopAction K Msg Diff)) : List (Effect K K Diff) :=
  out.filterMap fun
    | .sync effect => some effect
    | .session _ => none

theorem sum_map_le_length {α : Type} {f : α → ℕ} (hf : ∀ a, f a ≤ 1) (as : List α) :
    (as.map f).sum ≤ as.length := by
  induction as with
  | nil => exact Nat.le_refl 0
  | cons a as ih =>
    rw [List.map_cons, List.sum_cons, List.length_cons, Nat.add_comm]
    exact Nat.add_le_add ih (hf a)

theorem length_request? (out : List (Effect K K Diff)) :
    (out.filterMap Effect.request?).length = out.countP Effect.isRequest := by
  induction out with
  | nil => rfl
  | cons effect out ih =>
    cases effect with
    | orderBook c =>
      rw [List.countP_cons_of_neg Bool.false_ne_true]
      exact ih
    | requestNewSnapshot pair =>
      rw [List.countP_cons_of_pos rfl, ← ih]
      rfl

theorem filterMap_accepted (out : List (ListenerAction Msg (OrderBookSnapshotEvent K K))) :
    out.filterMap accepted = forwarded out := by
  unfold forwarded
  congr 1
  funext action
  cases action <;> rfl

variable {requestNewSnapshot : TradingPair → RestSession} {iterate : Msg → Option Json}
  {numbers : NumberParsers K}

/-- How many snapshots the event hands to the synchronisation. -/
def LoopEvent.handled : LoopEvent Msg Diff → ℕ
  | .processSnapshot => 1
  | .processDiff _ | .requestNewSnapshot | .session _ _ | .start | .processQueue => 0

theorem effects_append (out out' : List (LoopAction K Msg Diff)) :
    effects (out ++ out') = effects out ++ effects out' := List.filterMap_append

theorem effects_sync (out : List (Effect K K Diff)) :
    effects (out.map (LoopAction.sync : _ → LoopAction K Msg Diff)) = out := by
  induction out with
  | nil => rfl
  | cons effect out ih =>
    show effect :: effects (out.map LoopAction.sync) = effect :: out
    rw [ih]

theorem effects_session (out : List (RestAction Msg)) :
    effects (out.map (LoopAction.session : _ → LoopAction K Msg Diff)) = [] := by
  induction out with
  | nil => rfl
  | cons action out ih => exact ih

/-- The strand of the listener. -/
theorem credit_listen (hw : Weighs requestNewSnapshot iterate numbers wp wm)
    (s : SnapshotLoop K Msg Diff) {e : ListenerEvent Msg} (he : e = .start ∨ e = .processQueue)
    (henabled : s.listener.Enabled e) :
    credit wp wm (s.listen iterate numbers e) ≤ credit wp wm s := by
  unfold SnapshotLoop.listen credit
  dsimp only
  rw [filterMap_accepted, List.length_append]
  obtain rfl | rfl := he
  · show _ + ((messages { s.listener with
      pending := s.listener.pending - 1, running := some .entered }).map wm).sum + _ ≤ _
    rw [messages_start henabled.2]
    exact Nat.le_refl _
  · have hqueue := processQueue_messages (hw.message s.tradingPair) s.listener
    show _ + ((messages (s.listener.processQueue _).1).map wm).sum +
      (_ + (forwarded (s.listener.processQueue _).2).length) ≤ _
    omega

/-- One session of several. -/
theorem credit_session (hw : Weighs requestNewSnapshot iterate numbers wp wm)
    {sessions : List RestSession} {i : ℕ} {session : RestSession}
    (hget : sessions[i]? = some session)
    {next : RestSession × List (RestAction Msg)} (hstep : session.Stepped next) :
    ((sessions.set i next.1).map fun session => session.mayAnswer.toNat).sum +
      ((bodies next.2).map wm).sum ≤
        (sessions.map fun session => session.mayAnswer.toNat).sum := by
  obtain ⟨hi, hsession⟩ := List.getElem?_eq_some_iff.mp hget
  obtain ⟨pre, post, hsplit, -, hset⟩ : ∃ pre post, sessions = pre ++ sessions[i] :: post ∧
      pre.length = i ∧ sessions.set i next.1 = pre ++ next.1 :: post := List.exists_of_set hi
  have hanswers := hstep.answers
  have hbodies := sum_map_le_length hw.message_le_one (bodies next.2)
  rw [hsession] at hsplit
  rw [hset, hsplit, List.map_append, List.map_append, List.sum_append, List.sum_append,
    List.map_cons, List.map_cons, List.sum_cons, List.sum_cons]
  omega

variable [OrderBookDiffEventInterface Diff] {s : SnapshotLoop K Msg Diff}

/-- **One step of the credit**: it is made of nothing but new requests. -/
theorem credit_step (checkPacketLost : UInt64 → Diff → Bool)
    (hw : Weighs requestNewSnapshot iterate numbers wp wm)
    (hsessions : ∀ session ∈ s.sessions, session.OneRun) {e : LoopEvent Msg Diff}
    (he : s.Enabled e) :
    credit wp wm (s.step checkPacketLost requestNewSnapshot iterate numbers e).1 + e.handled ≤
      credit wp wm s +
        (effects (s.step checkPacketLost requestNewSnapshot iterate numbers e).2).countP
          Effect.isRequest := by
  cases e with
  | processDiff diff =>
    have hnew := sum_map_le_length hw.request_le_one
      ((s.sync.processDiff checkPacketLost diff).2.filterMap Effect.request?)
    rw [length_request?] at hnew
    unfold SnapshotLoop.step credit
    dsimp only
    rw [effects_sync, List.map_append, List.sum_append]
    show _ + 0 ≤ _
    omega
  | requestNewSnapshot =>
    unfold SnapshotLoop.step credit
    cases hrequests : s.requests with
    | nil => exact absurd hrequests he
    | cons pair rest =>
      have hpair := hw.request pair
      dsimp only
      rw [List.map_append, List.sum_append, List.map_cons, List.sum_cons]
      show _ + (_ + ((requestNewSnapshot pair).mayAnswer.toNat + 0)) + _ + _ + 0 ≤
        wp pair + (rest.map wp).sum + _ + _ + _ + 0
      omega
  | session i e =>
    obtain ⟨session, hget, he⟩ := he
    have hstep := RestSession.stepped_step (hsessions session (List.mem_of_getElem? hget)) he
    have hsession := credit_session hw hget hstep
    unfold SnapshotLoop.step credit
    dsimp only
    rw [hget]
    dsimp only
    rw [effects_session, messages_afterSession, List.map_append, List.sum_append]
    show _ + 0 ≤ _ + 0
    omega
  | start => exact credit_listen hw s (.inl rfl) he
  | processQueue => exact credit_listen hw s (.inr rfl) he
  | processSnapshot =>
    unfold SnapshotLoop.step credit
    cases hsnapshots : s.snapshots with
    | nil => exact absurd hsnapshots he
    | cons ptr rest =>
      dsimp only
      rw [List.length_cons]
      exact Nat.le_refl _

end Credit

/-! ### What is on its way, and for which pair -/

section OnWay

/-- The pair of the last request. -/
def lastRequest (out : List (Effect K K Diff)) : Option TradingPair :=
  (out.filterMap Effect.request?).getLast?

/-- What may become a snapshot will be one of the pair. -/
structure OnWay (pair : Option TradingPair) (s : SnapshotLoop K Msg Diff) : Prop where
  requests : ∀ p ∈ s.requests, pair = some p
  sessions : ∀ session ∈ s.sessions, session.mayAnswer = true → pair = some s.tradingPair
  messages : messages s.listener ≠ [] → pair = some s.tradingPair
  snapshots : ∀ ptr ∈ s.snapshots, pair = some ptr.tradingPair

/-- All that may become a snapshot. -/
abbrev onItsWay (s : SnapshotLoop K Msg Diff) : ℕ := credit (fun _ => 1) (fun _ => 1) s

theorem sum_map_one {α : Type} (as : List α) : (as.map fun _ => 1).sum = as.length := by
  rw [List.map_const', List.sum_replicate_nat, Nat.mul_one]

/-- When nothing is on its way, it is of any pair. -/
theorem onWay_of_eq_zero {s : SnapshotLoop K Msg Diff} (h : onItsWay s = 0)
    (pair : Option TradingPair) : OnWay pair s := by
  have hsilent : ∀ session ∈ s.sessions, session.mayAnswer = false :=
    fun _ hmem => mayAnswer_of_credit_eq_zero h hmem
  unfold onItsWay credit at h
  rw [sum_map_one, sum_map_one] at h
  have hrequests : s.requests = [] := List.length_eq_zero_iff.mp (by omega)
  have hmessages : messages s.listener = [] := List.length_eq_zero_iff.mp (by omega)
  have hsnapshots : s.snapshots = [] := List.length_eq_zero_iff.mp (by omega)
  refine ⟨?_, fun session hmem hanswer => ?_, fun hne => absurd hmessages hne, ?_⟩
  · rw [hrequests]
    exact nofun
  · exact absurd ((hsilent session hmem).symm.trans hanswer) Bool.false_ne_true
  · rw [hsnapshots]
    exact nofun

variable {requestNewSnapshot : TradingPair → RestSession} {iterate : Msg → Option Json}
  {numbers : NumberParsers K} {s : SnapshotLoop K Msg Diff} {pair : Option TradingPair}

theorem weighs_one (requestNewSnapshot : TradingPair → RestSession) (iterate : Msg → Option Json)
    (numbers : NumberParsers K) :
    Weighs requestNewSnapshot iterate numbers (fun _ => 1) fun _ => 1 where
  request _ := Bool.toNat_le _
  request_le_one _ := Nat.le_refl 1
  message_le_one _ := Nat.le_refl 1
  message _ _ := Option.length_toList_le

/-- The request that runs is the only thing on its way. -/
theorem onWay_requestNewSnapshot (h : OnWay pair s) (hone : onItsWay s ≤ 1) {p : TradingPair}
    {rest : List TradingPair} (hrequests : s.requests = p :: rest) :
    OnWay pair { s with
      requests := rest
      tradingPair := p
      sessions := s.sessions ++ [requestNewSnapshot p] } := by
  have hpair := h.requests p (hrequests ▸ List.mem_cons_self)
  have hzero : onItsWay { s with requests := rest, tradingPair := p } = 0 := by
    unfold onItsWay credit at hone ⊢
    rw [hrequests, List.map_cons, List.sum_cons] at hone
    dsimp only
    omega
  obtain ⟨hwaiting, hsessions, hmessages, hsnapshots⟩ := onWay_of_eq_zero hzero pair
  refine ⟨hwaiting, fun session hmem hanswer => ?_, hmessages, hsnapshots⟩
  rcases List.mem_append.mp hmem with hmem | hmem
  · exact hsessions session hmem hanswer
  · exact hpair

theorem onWay_session (h : OnWay pair s) {i : ℕ} {session : RestSession}
    (hget : s.sessions[i]? = some session) {next : RestSession × List (RestAction Msg)}
    (hstep : session.Stepped next) :
    OnWay pair { s with
      sessions := s.sessions.set i next.1
      listener := next.2.foldl afterSession s.listener } := by
  have hcurrent := h.sessions session (List.mem_of_getElem? hget)
  cases hanswer : session.mayAnswer with
  | true =>
    -- whatever it does is for the pair
    have hpair := hcurrent hanswer
    exact ⟨h.requests, fun _ _ _ => hpair, fun _ => hpair, h.snapshots⟩
  | false =>
    obtain ⟨hnext, hbodies⟩ := hstep.silent hanswer
    refine ⟨h.requests, fun x hmem hx => ?_, fun hne => ?_, h.snapshots⟩
    · rcases List.mem_or_eq_of_mem_set hmem with hmem | rfl
      · exact h.sessions x hmem hx
      · rw [hnext] at hx
        cases hx
    · rw [messages_afterSession, hbodies, List.append_nil] at hne
      exact h.messages hne

/-- What is passed on is not on its way any more. -/
theorem listen_messages (iterate : Msg → Option Json) (numbers : NumberParsers K)
    (tradingPair : TradingPair) (l : ListenerState Msg) :
    (messages (l.processQueue (snapshotResponseListener iterate numbers tradingPair)).1).length +
      (forwarded (l.processQueue (snapshotResponseListener iterate numbers tradingPair)).2).length ≤
        (messages l).length := by
  rw [← sum_map_one (messages l), ← sum_map_one]
  exact processQueue_messages (fun _ => Option.length_toList_le) l

/-- The strand of the listener passes on what it has, with the pair that it has. -/
theorem onWay_listen (h : OnWay pair s) {e : ListenerEvent Msg}
    (he : e = .start ∨ e = .processQueue) (henabled : s.listener.Enabled e) :
    OnWay pair (s.listen iterate numbers e) := by
  obtain rfl | rfl := he
  · refine ⟨h.requests, h.sessions, fun hne => h.messages ?_, ?_⟩
    · exact messages_start henabled.2 ▸ hne
    · show ∀ ptr ∈ s.snapshots ++ [], pair = some ptr.tradingPair
      rw [List.append_nil]
      exact h.snapshots
  · have hqueue := listen_messages iterate numbers s.tradingPair s.listener
    refine ⟨h.requests, h.sessions, fun hne => h.messages fun hnil => hne ?_, ?_⟩
    · rw [hnil] at hqueue
      exact List.length_eq_zero_iff.mp (Nat.le_zero.mp (Nat.le_trans (Nat.le_add_right _ _) hqueue))
    · show ∀ ptr ∈ s.snapshots ++ _, pair = some ptr.tradingPair
      intro ptr hmem
      rw [filterMap_accepted] at hmem
      rcases List.mem_append.mp hmem with hmem | hmem
      · exact h.snapshots ptr hmem
      · have hmessages : messages s.listener ≠ [] := by
          intro hnil
          have hpos := List.length_pos_of_mem hmem
          rw [hnil] at hqueue
          exact absurd (Nat.le_trans (Nat.le_add_left _ _) hqueue) (Nat.not_le.mpr hpos)
        obtain ⟨doc, hdoc⟩ := exists_of_mem_forwarded hmem
        obtain ⟨event, -, rfl⟩ := Option.map_eq_some_iff.mp hdoc
        exact h.messages hmessages

/-- One snapshot less. -/
theorem onWay_processSnapshot (h : OnWay pair s) {ptr : OrderBookSnapshotEvent K K}
    {rest : List (OrderBookSnapshotEvent K K)} (hsnapshots : s.snapshots = ptr :: rest)
    (sync : OrderBookSync K K Diff) : OnWay pair { s with sync, snapshots := rest } :=
  ⟨h.requests, h.sessions, h.messages, fun x hx =>
    h.snapshots x (hsnapshots ▸ List.mem_cons_of_mem ptr hx)⟩

end OnWay

/-! ### The run of the synchronisation in a run of the whole -/

section Run

/-- The diff that the strand handles. -/
def LoopEvent.diff? : LoopEvent Msg Diff → Option Diff
  | .processDiff d => some d
  | .requestNewSnapshot | .session _ _ | .start | .processQueue | .processSnapshot => none

def Event.handledDiff? : Event K K Diff → Option Diff
  | .diff d => some d
  | .snapshot _ => none

variable [OrderBookDiffEventInterface Diff] {checkPacketLost : UInt64 → Diff → Bool}
  {requestNewSnapshot : TradingPair → RestSession} {iterate : Msg → Option Json}
  {numbers : NumberParsers K}

/-- The state of the whole, when the synchronisation is in the state `u` after the effects `t`. -/
structure LoopInv (u : SyncState K K Diff) (t : List (Effect K K Diff))
    (s : SnapshotLoop K Msg Diff) : Prop where
  sync : s.sync = u.sync
  phase : SyncInv u (calls t)
  oneRun : ∀ session ∈ s.sessions, session.OneRun
  credit : onItsWay s ≤ u.outstanding
  onWay : OnWay (lastRequest t) s
  /-- for each body in the queue there is a call that has not looked at it -/
  notified : s.listener.queue.length ≤
    s.listener.pending + s.listener.enteredCalls + (s.sessions.map RestSession.unnotified).sum

variable {u : SyncState K K Diff} {t : List (Effect K K Diff)} {s : SnapshotLoop K Msg Diff}

theorem LoopInv.outstanding_le (h : LoopInv u t s) : u.outstanding ≤ 1 :=
  h.phase.wellPhased.oneRequest

theorem LoopInv.onItsWay_le (h : LoopInv u t s) : onItsWay s ≤ 1 :=
  Nat.le_trans h.credit h.outstanding_le

/-- A request is unanswered exactly while the flag is raised. -/
theorem LoopInv.outstanding_eq (h : LoopInv u t s) :
    u.outstanding = s.sync.snapshotRequestInFlight.toNat := by
  obtain ⟨p, hp⟩ := h.phase
  rw [h.sync, hp.outstanding, hp.flags.inFlight]
  cases p <;> rfl

/-- The strand of the synchronisation handles a diff. -/
theorem loopInv_processDiff (h : LoopInv u t s) (d : Diff) :
    LoopInv ((syncMachine checkPacketLost).step u (.diff d)).1
      (t ++ ((syncMachine checkPacketLost).step u (.diff d)).2)
      (s.step checkPacketLost requestNewSnapshot iterate numbers (.processDiff d)).1 := by
  have hphase : SyncInv ((syncMachine checkPacketLost).step u (.diff d)).1
      (calls (t ++ ((syncMachine checkPacketLost).step u (.diff d)).2)) :=
    syncInv_step trivial h.phase
  have hcredit := credit_step checkPacketLost (weighs_one requestNewSnapshot iterate numbers)
    h.oneRun (e := .processDiff d) trivial
  have hout := hphase.wellPhased.oneRequest
  have hsync := h.sync
  have hzero := h.credit
  unfold SnapshotLoop.step at hcredit ⊢
  dsimp only [syncMachine] at hcredit hout hphase ⊢
  rw [effects_sync, hsync] at hcredit
  rw [hsync]
  generalize u.sync.processDiff checkPacketLost d = r at hcredit hout hphase ⊢
  refine ⟨rfl, hphase, h.oneRun, ?_, ?_, h.notified⟩
  · exact Nat.le_trans hcredit (Nat.add_le_add_right h.credit _)
  · unfold lastRequest
    rw [List.filterMap_append]
    cases hrequests : r.2.filterMap Effect.request? with
    | nil =>
      rw [List.append_nil, List.append_nil]
      exact ⟨h.onWay.requests, h.onWay.sessions, h.onWay.messages, h.onWay.snapshots⟩
    | cons p rest =>
      -- there was no request before
      have hlength := length_request? r.2
      rw [hrequests, List.length_cons] at hlength
      have hrest : rest = [] := List.length_eq_zero_iff.mp (by omega)
      obtain ⟨hwaiting, hsessions, hmessages, hsnapshots⟩ :=
        onWay_of_eq_zero (s := s) (by omega) (some p)
      rw [hrest, List.getLast?_concat]
      refine ⟨fun q hq => ?_, hsessions, hmessages, hsnapshots⟩
      rcases List.mem_append.mp hq with hq | hq
      · exact hwaiting q hq
      · rw [List.mem_singleton.mp hq]

/-- A step of the others, which the synchronisation does not notice. -/
theorem LoopInv.of_step (h : LoopInv u t s) {e : LoopEvent Msg Diff} (he : s.Enabled e)
    {s' : SnapshotLoop K Msg Diff} {out : List (LoopAction K Msg Diff)}
    (hstep : s.step checkPacketLost requestNewSnapshot iterate numbers e = (s', out))
    (hout : effects out = []) (hsync : s'.sync = s.sync)
    (honeRun : ∀ session ∈ s'.sessions, session.OneRun) (honWay : OnWay (lastRequest t) s')
    (hnotified : s'.listener.queue.length ≤ s'.listener.pending + s'.listener.enteredCalls +
      (s'.sessions.map RestSession.unnotified).sum) : LoopInv u t s' := by
  have hcredit := credit_step checkPacketLost (weighs_one requestNewSnapshot iterate numbers)
    h.oneRun he
  rw [hstep] at hcredit
  dsimp only at hcredit
  rw [hout, List.countP_nil] at hcredit
  exact ⟨hsync.trans h.sync, h.phase, honeRun,
    Nat.le_trans (Nat.le_trans (Nat.le_add_right _ _) hcredit) h.credit, honWay, hnotified⟩

theorem loopInv_requestNewSnapshot (hone : ∀ pair, (requestNewSnapshot pair).OneRun)
    (h : LoopInv u t s) (he : s.Enabled .requestNewSnapshot) :
    LoopInv u t
      (s.step checkPacketLost requestNewSnapshot iterate numbers .requestNewSnapshot).1 := by
  cases hrequests : s.requests with
  | nil => exact absurd hrequests he
  | cons p rest =>
    have hstep : s.step checkPacketLost requestNewSnapshot iterate numbers .requestNewSnapshot =
        ({ s with
            requests := rest
            tradingPair := p
            sessions := s.sessions ++ [requestNewSnapshot p] }, []) := by
      unfold SnapshotLoop.step
      dsimp only
      rw [hrequests]
    rw [hstep]
    refine h.of_step he hstep rfl rfl ?_ (onWay_requestNewSnapshot h.onWay h.onItsWay_le hrequests)
      ?_
    · intro session hmem
      rcases List.mem_append.mp hmem with hmem | hmem
      · exact h.oneRun session hmem
      · rw [List.mem_singleton.mp hmem]
        exact hone p
    · have hnotified := h.notified
      dsimp only
      rw [List.map_append, List.sum_append]
      omega

/-- What happens in a session. -/
theorem step_session {i : ℕ} {session : RestSession} (hget : s.sessions[i]? = some session)
    (e : RestEvent Msg) :
    s.step checkPacketLost requestNewSnapshot iterate numbers (.session i e) =
      ({ s with
          sessions := s.sessions.set i (session.step e).1
          listener := (session.step e).2.foldl afterSession s.listener },
        (session.step e).2.map .session) := by
  unfold SnapshotLoop.step
  dsimp only
  rw [hget]

theorem loopInv_session (h : LoopInv u t s) {i : ℕ} {e : RestEvent Msg}
    (he : s.Enabled (.session i e)) :
    LoopInv u t (s.step checkPacketLost requestNewSnapshot iterate numbers (.session i e)).1 := by
  have ⟨session, hget, hsession⟩ := he
  have hstepped := RestSession.stepped_step (h.oneRun session (List.mem_of_getElem? hget)) hsession
  have hstep : s.step checkPacketLost requestNewSnapshot iterate numbers (.session i e) = _ :=
    step_session hget e
  rw [hstep]
  refine h.of_step he hstep (effects_session _) rfl ?_
    (onWay_session h.onWay hget hstepped) ?_
  · intro x hmem
    rcases List.mem_or_eq_of_mem_set hmem with hmem | rfl
    · exact h.oneRun x hmem
    · exact hstepped.oneRun
  · -- what the session has put into the queue, it has called the listener for, or will
    obtain ⟨hi, hgetElem⟩ := List.getElem?_eq_some_iff.mp hget
    obtain ⟨pre, post, hsplit, -, hset⟩ : ∃ pre post,
        s.sessions = pre ++ s.sessions[i] :: post ∧ pre.length = i ∧
          s.sessions.set i (session.step e).1 = pre ++ (session.step e).1 :: post :=
      List.exists_of_set hi
    have hbound := h.notified
    have hnotified := hstepped.notified
    rw [hgetElem] at hsplit
    rw [hsplit, List.map_append, List.sum_append, List.map_cons, List.sum_cons] at hbound
    dsimp only
    rw [foldl_afterSession, hset, List.map_append, List.sum_append, List.map_cons, List.sum_cons]
    show (s.listener.queue ++ bodies (session.step e).2).length ≤
      s.listener.pending + notifications (session.step e).2 + s.listener.enteredCalls + _
    rw [List.length_append]
    omega

theorem loopInv_listen (h : LoopInv u t s) {e : LoopEvent Msg Diff} (he : s.Enabled e)
    {e' : ListenerEvent Msg} (he' : e' = .start ∨ e' = .processQueue)
    (henabled : s.listener.Enabled e')
    (hstep : s.step checkPacketLost requestNewSnapshot iterate numbers e =
      (s.listen iterate numbers e', [])) :
    LoopInv u t (s.step checkPacketLost requestNewSnapshot iterate numbers e).1 := by
  rw [hstep]
  refine h.of_step he hstep rfl rfl h.oneRun (onWay_listen h.onWay he' henabled) ?_
  have hbound := h.notified
  obtain rfl | rfl := he'
  · obtain ⟨hpending, hrunning⟩ := henabled
    have hentered := enteredCalls_le_runningCalls s.listener
    unfold ListenerState.runningCalls at hentered
    rw [hrunning] at hentered
    have hidle : s.listener.enteredCalls = 0 := Nat.le_zero.mp hentered
    show s.listener.queue.length ≤
      s.listener.pending - 1 + 1 + (s.sessions.map RestSession.unnotified).sum
    omega
  · exact bounded_processQueue hbound

/-- The strand of the synchronisation handles a snapshot, which answers the last request. -/
theorem loopInv_processSnapshot (h : LoopInv u t s) (he : s.Enabled .processSnapshot) :
    ∃ ptr, 0 < u.outstanding ∧ lastRequest t = some ptr.tradingPair ∧
      LoopInv ((syncMachine checkPacketLost).step u (.snapshot ptr)).1 t
        (s.step checkPacketLost requestNewSnapshot iterate numbers .processSnapshot).1 := by
  cases hsnapshots : s.snapshots with
  | nil => exact absurd hsnapshots he
  | cons ptr rest =>
    have hcredit := credit_step checkPacketLost (weighs_one requestNewSnapshot iterate numbers)
      h.oneRun he
    have hstep : s.step checkPacketLost requestNewSnapshot iterate numbers .processSnapshot =
        ({ s with sync := s.sync.processSnapshot ptr, snapshots := rest }, []) := by
      unfold SnapshotLoop.step
      dsimp only
      rw [hsnapshots]
    have hbound := h.credit
    rw [hstep] at hcredit ⊢
    have hone : onItsWay { s with sync := s.sync.processSnapshot ptr, snapshots := rest } + 1 ≤
        onItsWay s := hcredit
    have hout : 0 < u.outstanding := by omega
    refine ⟨ptr, hout, h.onWay.snapshots ptr (hsnapshots ▸ List.mem_cons_self), ?_⟩
    refine ⟨?_, syncInv_snapshot h.phase hout ptr, h.oneRun, ?_,
      onWay_processSnapshot h.onWay hsnapshots _, h.notified⟩
    · rw [h.sync]
      rfl
    · show onItsWay { s with sync := s.sync.processSnapshot ptr, snapshots := rest } ≤
        u.outstanding - 1
      omega

/-- The run of the synchronisation in a run of the whole: it handles the same diffs, its effects
are the same, and each snapshot answers the last request, with the pair of that request. -/
structure SyncRun (checkPacketLost : UInt64 → Diff → Bool) (es : List (LoopEvent Msg Diff))
    (s : SnapshotLoop K Msg Diff) (t : List (LoopAction K Msg Diff))
    (handled : List (Event K K Diff)) : Prop where
  legal : (syncMachine checkPacketLost).Legal {} handled
  sync : s.sync = ((syncMachine checkPacketLost).final {} handled).sync
  trace : effects t = (syncMachine checkPacketLost).trace {} handled
  diffs : handled.filterMap Event.handledDiff? = es.filterMap LoopEvent.diff?
  answers : ∀ pre e post, handled = pre ++ e :: post → ∀ ptr, e = .snapshot ptr →
    lastRequest ((syncMachine checkPacketLost).trace {} pre) = some ptr.tradingPair

/-- The same with the invariant. -/
structure LoopRun (checkPacketLost : UInt64 → Diff → Bool) (es : List (LoopEvent Msg Diff))
    (s : SnapshotLoop K Msg Diff) (t : List (LoopAction K Msg Diff))
    (handled : List (Event K K Diff)) : Prop extends
    SyncRun checkPacketLost es s t handled where
  inv : LoopInv ((syncMachine checkPacketLost).final {} handled)
    ((syncMachine checkPacketLost).trace {} handled) s

variable {es : List (LoopEvent Msg Diff)} {out : List (LoopAction K Msg Diff)}
  {handled : List (Event K K Diff)}

/-- A step that the synchronisation does not notice. -/
theorem LoopRun.of_inv (h : LoopRun checkPacketLost es s out handled) {e : LoopEvent Msg Diff}
    (he : e.diff? = none) {next : SnapshotLoop K Msg Diff × List (LoopAction K Msg Diff)}
    (hout : effects next.2 = [])
    (hinv : LoopInv ((syncMachine checkPacketLost).final {} handled)
      ((syncMachine checkPacketLost).trace {} handled) next.1) :
    LoopRun checkPacketLost (es ++ [e]) next.1 (out ++ next.2) handled where
  legal := h.legal
  sync := hinv.sync
  trace := by rw [effects_append, hout, List.append_nil, h.trace]
  diffs := by
    rw [List.filterMap_append, List.filterMap_cons_none he, List.filterMap_nil, List.append_nil]
    exact h.diffs
  answers := h.answers
  inv := hinv

theorem loopRun_processDiff (h : LoopRun checkPacketLost es s out handled) (d : Diff) :
    LoopRun checkPacketLost (es ++ [.processDiff d])
      (s.step checkPacketLost requestNewSnapshot iterate numbers (.processDiff d)).1
      (out ++ (s.step checkPacketLost requestNewSnapshot iterate numbers (.processDiff d)).2)
      (handled ++ [.diff d]) where
  legal := ((syncMachine checkPacketLost).allSteps_append _ _ _ _).mpr ⟨h.legal, trivial, trivial⟩
  sync := by
    rw [Machine.final_concat]
    show (s.sync.processDiff checkPacketLost d).1 = _
    rw [h.sync]
    rfl
  trace := by
    rw [effects_append, Machine.trace_concat, h.trace]
    show _ ++ effects ((s.sync.processDiff checkPacketLost d).2.map .sync) = _
    rw [effects_sync, h.sync]
    rfl
  diffs := by
    rw [List.filterMap_append, List.filterMap_append, h.diffs]
    rfl
  answers := forall_split_concat.mpr ⟨h.answers, nofun⟩
  inv := by
    rw [Machine.final_concat, Machine.trace_concat]
    exact loopInv_processDiff h.inv d

/-- Only the strand of the synchronisation has effects on its side. -/
theorem effects_step {e : LoopEvent Msg Diff} (he : e.diff? = none) (s : SnapshotLoop K Msg Diff) :
    effects (s.step checkPacketLost requestNewSnapshot iterate numbers e).2 = [] := by
  unfold SnapshotLoop.step
  cases e with
  | processDiff d => cases he
  | requestNewSnapshot => dsimp only; split <;> rfl
  | session i e =>
    dsimp only
    split
    · rfl
    · exact effects_session _
  | start => rfl
  | processQueue => rfl
  | processSnapshot => dsimp only; split <;> rfl

theorem loopRun_processSnapshot (h : LoopRun checkPacketLost es s out handled)
    (he : s.Enabled .processSnapshot) :
    ∃ ptr, LoopRun checkPacketLost (es ++ [.processSnapshot])
      (s.step checkPacketLost requestNewSnapshot iterate numbers .processSnapshot).1
      (out ++ (s.step checkPacketLost requestNewSnapshot iterate numbers .processSnapshot).2)
      (handled ++ [.snapshot ptr]) := by
  obtain ⟨ptr, hout, hlast, hinv⟩ := loopInv_processSnapshot h.inv he
  refine ⟨ptr, ⟨?_, ?_, ?_, ?_, ?_⟩, ?_⟩
  · exact ((syncMachine checkPacketLost).allSteps_append _ _ _ _).mpr ⟨h.legal, hout, trivial⟩
  · rw [Machine.final_concat]
    exact hinv.sync
  · rw [effects_append, effects_step rfl, h.trace, Machine.trace_concat]
    rfl
  · rw [List.filterMap_append, List.filterMap_append, h.diffs]
    rfl
  · refine forall_split_concat.mpr ⟨h.answers, fun ptr' hptr => ?_⟩
    rw [hlast, Event.snapshot.inj hptr]
  · rw [Machine.final_concat, Machine.trace_concat]
    show LoopInv _ (_ ++ []) _
    rw [List.append_nil]
    exact hinv

theorem loopRun_step (hone : ∀ pair, (requestNewSnapshot pair).OneRun)
    (h : LoopRun checkPacketLost es s out handled) {e : LoopEvent Msg Diff} (he : s.Enabled e) :
    ∃ handled', LoopRun checkPacketLost (es ++ [e])
      (s.step checkPacketLost requestNewSnapshot iterate numbers e).1
      (out ++ (s.step checkPacketLost requestNewSnapshot iterate numbers e).2) handled' := by
  cases e with
  | processDiff d => exact ⟨_, loopRun_processDiff h d⟩
  | requestNewSnapshot =>
    exact ⟨handled, h.of_inv rfl (effects_step rfl s) (loopInv_requestNewSnapshot hone h.inv he)⟩
  | session i e => exact ⟨handled, h.of_inv rfl (effects_step rfl s) (loopInv_session h.inv he)⟩
  | start => exact ⟨handled, h.of_inv rfl rfl (loopInv_listen h.inv he (.inl rfl) he rfl)⟩
  | processQueue => exact ⟨handled, h.of_inv rfl rfl (loopInv_listen h.inv he (.inr rfl) he rfl)⟩
  | processSnapshot =>
    obtain ⟨ptr, hnext⟩ := loopRun_processSnapshot h he
    exact ⟨_, hnext⟩

theorem loopRun_init :
    LoopRun checkPacketLost [] ({} : SnapshotLoop K Msg Diff) ([] : List (LoopAction K Msg Diff))
      [] where
  legal := trivial
  sync := rfl
  trace := rfl
  diffs := rfl
  answers := forall_split_nil
  inv := ⟨rfl, syncInv_init, nofun, Nat.le_refl 0, onWay_of_eq_zero rfl _, Nat.le_refl 0⟩

/-- A run of the whole has a run of the synchronisation in it. -/
theorem exists_loopRun (hone : ∀ pair, (requestNewSnapshot pair).OneRun)
    (h : (snapshotLoop checkPacketLost requestNewSnapshot iterate numbers).Legal {} es) :
    ∃ handled, LoopRun checkPacketLost es
      ((snapshotLoop checkPacketLost requestNewSnapshot iterate numbers).final {} es)
      ((snapshotLoop checkPacketLost requestNewSnapshot iterate numbers).trace {} es) handled := by
  refine (snapshotLoop checkPacketLost requestNewSnapshot iterate numbers).invariant_events
    (P := fun es s out => ∃ handled, LoopRun checkPacketLost es s out handled) ?_
    ⟨[], loopRun_init⟩ h
  rintro pre s out e he ⟨handled, hrun⟩
  exact loopRun_step hone hrun he

theorem syncRun_of_legal (hone : ∀ pair, (requestNewSnapshot pair).OneRun)
    (h : (snapshotLoop checkPacketLost requestNewSnapshot iterate numbers).Legal {} es) :
    let s := (snapshotLoop checkPacketLost requestNewSnapshot iterate numbers).final {} es
    (∃ handled, SyncRun checkPacketLost es s
      ((snapshotLoop checkPacketLost requestNewSnapshot iterate numbers).trace {} es) handled) ∧
    onItsWay s ≤ s.sync.snapshotRequestInFlight.toNat := by
  obtain ⟨handled, hrun⟩ := exists_loopRun hone h
  exact ⟨⟨handled, hrun.toSyncRun⟩, hrun.inv.outstanding_eq ▸ hrun.inv.credit⟩

end Run

theorem Spot.requestNewSnapshot_oneRun (pair : TradingPair) :
    (Spot.requestNewSnapshot pair).OneRun := by
  unfold Spot.requestNewSnapshot RestSession.send
  split
  · exact Nat.zero_le 1
  · exact Nat.zero_le 1

theorem Futures.requestNewSnapshot_oneRun (pair : TradingPair) :
    (Futures.requestNewSnapshot pair).OneRun := by
  unfold Futures.requestNewSnapshot RestSession.send
  split
  · exact Nat.le_refl 1
  · exact Nat.le_refl 1

/-- **The requests and the synchronisation**: whatever the sessions, the listener and the threads
do, the synchronisation gets a snapshot only while a request is unanswered, one for each request at
most, and of the pair of that request.  There is never more than one request, response or snapshot
on its way, and none unless the flag is raised. -/
theorem snapshotLoop_syncRun (iterate : Msg → Option Json) (numbers : NumberParsers K) :
    (∀ es : List (LoopEvent Msg (OrderBookDiffEvent K K)),
      (Spot.snapshotLoop iterate numbers).Legal {} es →
      let s := (Spot.snapshotLoop iterate numbers).final {} es
      (∃ handled, SyncRun Spot.checkPacketLost es s
        ((Spot.snapshotLoop iterate numbers).trace {} es) handled) ∧
      onItsWay s ≤ s.sync.snapshotRequestInFlight.toNat) ∧
    (∀ es : List (LoopEvent Msg (Futures.OrderBookDiffEvent K K)),
      (Futures.snapshotLoop iterate numbers).Legal {} es →
      let s := (Futures.snapshotLoop iterate numbers).final {} es
      (∃ handled, SyncRun Futures.checkPacketLost es s
        ((Futures.snapshotLoop iterate numbers).trace {} es) handled) ∧
      onItsWay s ≤ s.sync.snapshotRequestInFlight.toNat) :=
  ⟨fun _ h => syncRun_of_legal Spot.requestNewSnapshot_oneRun h,
    fun _ h => syncRun_of_legal Futures.requestNewSnapshot_oneRun h⟩

/-- Numbers of which nothing is asked. -/
def anyNumbers : NumberParsers ℕ where
  getDouble := fun _ => some 0
  getUint64 := fun _ => some 1

/-- The answer with an empty book. -/
def emptyAnswer : Json :=
  .object [("lastUpdateId", .number "1"), ("bids", .array []), ("asks", .array [])]

/-- A diff of a pair with a name, and its request up to `async_resolve`. -/
def resolvingRun : List (LoopEvent Json (Futures.OrderBookDiffEvent ℕ ℕ)) :=
  [.processDiff { previousUpdateId := 0, firstUpdateId := 1, finalUpdateId := 2,
                  tradingPair := .kBTCUSDT },
    .requestNewSnapshot, .session 0 (.poll true), .session 0 (.poll true)]

/-- The request is answered; a second diff arrives after the snapshot has been handled. -/
def answeredRun : List (LoopEvent Json (Futures.OrderBookDiffEvent ℕ ℕ)) :=
  resolvingRun ++ [.session 0 .done, .session 0 .done, .session 0 .done, .session 0 .done,
    .session 0 (.response emptyAnswer), .session 0 .done, .start, .processQueue, .processQueue,
    .processSnapshot,
    .processDiff { previousUpdateId := 2, firstUpdateId := 3, finalUpdateId := 4,
                   tradingPair := .kBTCUSDT }]

theorem answeredRun_legal : (Futures.snapshotLoop some anyNumbers).Legal {} answeredRun :=
  ⟨trivial, List.cons_ne_nil _ _, ⟨_, rfl, List.cons_ne_nil _ _, nofun⟩,
    ⟨_, rfl, List.cons_ne_nil _ _, nofun⟩, ⟨_, rfl, nofun, nofun⟩, ⟨_, rfl, nofun, nofun⟩,
    ⟨_, rfl, nofun, nofun⟩, ⟨_, rfl, nofun, nofun⟩, ⟨_, rfl, rfl⟩, ⟨_, rfl, nofun, nofun⟩,
    ⟨Nat.one_ne_zero, rfl⟩, nofun, nofun, List.cons_ne_nil _ _, trivial, trivial⟩

theorem inFlight_answeredRun : ((Futures.snapshotLoop (K := ℕ) some anyNumbers).final {}
    answeredRun).sync.snapshotRequestInFlight = false := by
  decide +kernel

/-- The snapshot that reaches the synchronisation is the answer, with the pair of the request, and
then nothing is on its way any more. -/
theorem snapshotLoop_syncRun_answeredRun :
    effects ((Futures.snapshotLoop (K := ℕ) some anyNumbers).trace {} answeredRun) =
      [.orderBook .clear, .requestNewSnapshot .kBTCUSDT,
        .orderBook (.snapshot { updateId := 1, tradingPair := .kBTCUSDT }),
        .orderBook (.diff { previousUpdateId := 0, firstUpdateId := 1, finalUpdateId := 2,
                            tradingPair := .kBTCUSDT }),
        .orderBook (.diff { previousUpdateId := 2, firstUpdateId := 3, finalUpdateId := 4,
                            tradingPair := .kBTCUSDT })] ∧
    (∃ handled, SyncRun Futures.checkPacketLost answeredRun
      ((Futures.snapshotLoop (K := ℕ) some anyNumbers).final {} answeredRun)
      ((Futures.snapshotLoop (K := ℕ) some anyNumbers).trace {} answeredRun) handled) ∧
    onItsWay ((Futures.snapshotLoop (K := ℕ) some anyNumbers).final {} answeredRun) = 0 := by
  have hrun := (snapshotLoop_syncRun some anyNumbers).2 answeredRun answeredRun_legal
  dsimp only at hrun
  rw [inFlight_answeredRun] at hrun
  exact ⟨by decide +kernel, hrun.1, Nat.le_zero.mp hrun.2⟩

end CryptobotAlgo.Aoe.Binance
