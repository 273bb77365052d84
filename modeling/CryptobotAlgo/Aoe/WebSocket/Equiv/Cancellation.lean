import CryptobotAlgo.Aoe.WebSocket.Equiv.Session

/-!
# Which loops the cancellation reaches

Every loop declares its own `cancelled` when it starts, and puts its handler into the slot of
`cancel_signal_`, where it replaces the handler of the loop that started before.  An emission
therefore reaches one loop at most.

A loop whose `cancelled` is set stays cancelled, as only a loop that starts resets its own, and does
no more than write the message it already has (`Stopped.step`).  A loop that is not reached goes on
(`exists_startsFurther`).
-/

namespace CryptobotAlgo.Aoe.WebSocket

variable {M : Type}

/-- The loop `id` has started and has not returned. -/
def Running (s : Session M) (id : ℕ) : Prop :=
  ∃ c, s.coroutines id = some c ∧ ¬ c.Unstarted

/-- The loop `id` starts a read, or takes one more message. -/
def StartsFurther (cls : SessionClass) (s : Session M) (id : ℕ) (e : SessionEvent M) : Prop :=
  ∃ completion, e = .resume id completion ∧
    (.asyncRead ∈ (s.resume cls id completion).2 ∨
      ∃ message, (s.resume cls id completion).1.coroutines id = some (.timer message))

/-- Once the emission has been executed, no loop that was running starts anything further. -/
def ReachesEveryLoop (cls : SessionClass) (s : Session M) : Prop :=
  ∀ post, (sessionMachine M cls).Legal (s.step cls .runStop).1 post →
    (sessionMachine M cls).AllSteps (fun t e => ∀ id, Running s id → ¬ StartsFurther cls t id e)
      (s.step cls .runStop).1 post

/-- The loop `id` has returned, or is going to. -/
structure Stopped (s : Session M) (id : ℕ) : Prop where
  spawned : id < s.spawned
  cancelled : ∀ c, s.coroutines id = some c → s.cancelled id = true ∧ ¬ c.Unstarted

section Stopped

variable {cls : SessionClass} {s : Session M} {id : ℕ}

theorem cancelled_emit (h : s.cancelled id = true) : s.emit.cancelled id = true := by
  obtain ⟨cancelled, hcancelled, hemit⟩ := emit_eq s
  rw [hemit]
  exact (hcancelled id).mpr (.inl h)

theorem cancelled_readHead (h : s.cancelled id = true) (j : ℕ) :
    (s.readHead j).1.cancelled id = true := by
  unfold Session.readHead
  split
  · exact cancelled_emit h
  · exact h

theorem cancelled_assignSlot {j : ℕ} (hid : id ≠ j) (h : s.cancelled id = true) :
    (s.assignSlot j).cancelled id = true :=
  (Function.update_of_ne hid _ _).trans h

/-- Another loop resets its own `cancelled` only. -/
theorem cancelled_resume_of_ne {j : ℕ} (hid : id ≠ j) (h : s.cancelled id = true)
    (completion : Completion) : (s.resume cls j completion).1.cancelled id = true := by
  have hassign := cancelled_assignSlot hid h
  unfold Session.resume
  split
  · exact h
  · split
    · exact h
    · rw [cancelled_writeHead]
      exact hassign
  · rw [cancelled_writeHead]
    exact hassign
  · exact h
  · split
    · exact h
    · rw [cancelled_writeHead]
      exact h
  · exact cancelled_readHead hassign j
  · split
    · exact cancelled_emit h
    · exact cancelled_readHead h j

/-- What is not a loop going on cancels, or changes no `cancelled`. -/
theorem OtherStep.cancelled {e : SessionEvent M} {s' : Session M} (hother : OtherStep cls s e s')
    (h : s.cancelled id = true) : s'.cancelled id = true := by
  cases hother with
  | runStop hcancelled => exact (hcancelled id).mpr (.inl h)
  | _ => exact h

variable (cls) in
/-- A cancelled loop writes the message that it has, or returns. -/
theorem resume_of_cancelled {c : Coroutine M} (hid : s.coroutines id = some c)
    (hc : ¬ c.Unstarted) (h : s.cancelled id = true) (completion : Completion) :
    .asyncRead ∉ (s.resume cls id completion).2 ∧
      ((s.resume cls id completion).1.coroutines id = none ∨
        (s.resume cls id completion).1.cancelled id = true ∧ ∃ message,
          (s.resume cls id completion).1.coroutines id = some (.asyncWrite message)) := by
  have hwrite : s.writeHead cls id = (s.finish id, [.writeDone]) := if_pos h
  have hread : s.readHead id = s.endRead id := if_pos h
  have hend : (s.endRead id).1.coroutines id = none := finish_self s.emit id
  unfold Session.resume
  rw [hid]
  cases c with
  | startWrite => exact absurd trivial hc
  | writeLoop => exact absurd trivial hc
  | readLoop => exact absurd trivial hc
  | timer message =>
    refine ⟨?_, .inr ⟨h, message, suspend_self s id _⟩⟩
    simp
  | asyncWrite message =>
    cases completion with
    | error => exact ⟨by simp, .inl (finish_self s id)⟩
    | success data =>
      dsimp only
      rw [hwrite]
      exact ⟨by simp, .inl (finish_self s id)⟩
  | asyncRead =>
    cases completion with
    | error => exact ⟨by simp [Session.endRead], .inl hend⟩
    | success data =>
      dsimp only
      rw [hread]
      refine ⟨?_, .inl hend⟩
      split
      · simp [Session.endRead]
      · simp [Session.endRead]

variable (cls) in
/-- A stopped loop that goes on stays stopped, or returns. -/
theorem Stopped.resume (h : Stopped s id) (he : s.coroutines id ≠ none) (completion : Completion) :
    Stopped (s.resume cls id completion).1 id ∧
      ¬ StartsFurther cls s id (.resume id completion) := by
  obtain ⟨c, hc⟩ := Option.ne_none_iff_exists'.mp he
  obtain ⟨hcancelled, hstarted⟩ := h.cancelled c hc
  obtain ⟨hread, hnext⟩ := resume_of_cancelled cls hc hstarted hcancelled completion
  refine ⟨⟨(KeepsOthers.resume cls s id completion).spawned ▸ h.spawned, fun d hd => ?_⟩, ?_⟩
  · rcases hnext with hnone | ⟨hkept, message, hwrite⟩
    · exact nomatch hnone.symm.trans hd
    · obtain rfl : .asyncWrite message = d := Option.some.inj (hwrite.symm.trans hd)
      exact ⟨hkept, not_false⟩
  · rintro ⟨completion', heq, hfurther⟩
    obtain rfl : completion = completion' := by injection heq
    rcases hfurther with hmem | ⟨message', htimer⟩
    · exact hread hmem
    · rcases hnext with hnone | ⟨-, message, hwrite⟩
      · exact nomatch hnone.symm.trans htimer
      · exact nomatch hwrite.symm.trans htimer

variable (cls) in
theorem Stopped.resume_of_ne (h : Stopped s id) {j : ℕ} (hid : id ≠ j) (completion : Completion) :
    Stopped (s.resume cls j completion).1 id ∧
      ¬ StartsFurther cls s id (.resume j completion) := by
  have hkeep := KeepsOthers.resume cls s j completion
  refine ⟨⟨hkeep.spawned ▸ h.spawned, fun c hc => ?_⟩, ?_⟩
  · have hold : s.coroutines id = some c := (hkeep.coroutines id hid).symm.trans hc
    obtain ⟨hcancelled, hstarted⟩ := h.cancelled c hold
    exact ⟨cancelled_resume_of_ne hid hcancelled completion, hstarted⟩
  · rintro ⟨completion', heq, -⟩
    injection heq with heq
    exact hid heq.symm

theorem OtherStep.stopped {e : SessionEvent M} {s' : Session M} (hother : OtherStep cls s e s')
    (hfresh : Fresh s) (h : Stopped s id) : Stopped s' id := by
  have hspawn := hother.spawnsOnly hfresh
  refine ⟨Nat.lt_of_lt_of_le h.spawned hspawn.spawned, fun c hc => ?_⟩
  rcases hspawn.new id c hc with hold | ⟨hle, -⟩
  · obtain ⟨hcancelled, hstarted⟩ := h.cancelled c hold
    exact ⟨hother.cancelled hcancelled, hstarted⟩
  · exact absurd h.spawned (Nat.not_lt_of_le hle)

variable (cls) in
theorem Stopped.step (h : Stopped s id) (hfresh : Fresh s) {e : SessionEvent M}
    (he : s.Enabled e) : Stopped (s.step cls e).1 id ∧ ¬ StartsFurther cls s id e := by
  rcases step_cases cls he with ⟨j, completion, rfl⟩ | ⟨s', hstep, hother⟩
  · by_cases hid : id = j
    · subst hid
      exact h.resume cls he completion
    · exact h.resume_of_ne cls hid completion
  · rw [hstep]
    refine ⟨hother.stopped hfresh h, ?_⟩
    rintro ⟨completion, rfl, -⟩
    cases hother

/-- A stopped loop starts nothing further, whatever happens. -/
theorem Stopped.allSteps (h : Stopped s id) (hfresh : Fresh s) {post : List (SessionEvent M)}
    (hlegal : (sessionMachine M cls).Legal s post) :
    (sessionMachine M cls).AllSteps (fun t e => ¬ StartsFurther cls t id e) s post := by
  induction post generalizing s with
  | nil => trivial
  | cons e post ih =>
    obtain ⟨hstopped, hnothing⟩ := h.step cls hfresh hlegal.1
    exact ⟨hnothing, ih hstopped (hfresh.step hlegal.1) hlegal.2⟩

end Stopped

/-! ### What is not reached -/

section Further

variable {cls : SessionClass} {s : Session M} {id : ℕ}

variable (cls) in
theorem exists_timer_writeHead (h : s.cancelled id = false) (hqueue : s.messageQueue ≠ []) :
    ∃ message, (s.writeHead cls id).1.coroutines id = some (.timer message) := by
  unfold Session.writeHead
  rw [if_neg (by rw [h]; exact Bool.false_ne_true)]
  obtain ⟨message, rest, hmessages⟩ := List.exists_cons_of_ne_nil hqueue
  rw [hmessages]
  exact ⟨message, suspend_self _ id _⟩

variable (cls) in
/-- `AsyncWrite` gives a loop that has written one more message. -/
theorem exists_startsFurther_of_asyncWrite {message : M}
    (hid : s.coroutines id = some (.asyncWrite message)) (hfresh : Fresh s)
    (h : s.cancelled id = false) : ∃ post, (sessionMachine M cls).Legal s post ∧
      ¬ (sessionMachine M cls).AllSteps (fun t e => ¬ StartsFurther cls t id e) s post := by
  obtain ⟨first, rest, hstrand⟩ := List.exists_cons_of_ne_nil (List.append_ne_nil_of_right_ne_nil
    s.strand (List.cons_ne_nil message []))
  -- the handler that runs first queues a message
  have hhandled : (({ s with strand := s.strand ++ [message] } : Session M).step cls
      .runHandler).1 = ({ s with strand := rest } : Session M).handler first := by
    unfold Session.step
    dsimp only
    rw [hstrand]
  have hthere : (({ s with strand := rest } : Session M).handler first).coroutines id =
      some (.asyncWrite message) := (Function.update_of_ne (hfresh.ne hid) _ _).trans hid
  have hresume : (({ s with strand := rest } : Session M).handler first).resume cls id
      (.success []) = (({ s with strand := rest } : Session M).handler first).writeHead cls id := by
    unfold Session.resume
    rw [hthere]
  have hnext := exists_timer_writeHead cls
    (s := ({ s with strand := rest } : Session M).handler first) h
    (List.append_ne_nil_of_right_ne_nil s.messageQueue (List.cons_ne_nil first []))
  refine ⟨[.asyncWrite message, .runHandler, .resume id (.success [])], ⟨trivial, ?_, ?_, trivial⟩,
    fun hall => ?_⟩
  · show s.strand ++ [message] ≠ []
    rw [hstrand]
    exact List.cons_ne_nil first rest
  · show (({ s with strand := s.strand ++ [message] } : Session M).step cls
      .runHandler).1.coroutines id ≠ none
    rw [hhandled, hthere]
    exact nofun
  · have hlast : ¬ StartsFurther cls (({ s with strand := s.strand ++ [message] } : Session M).step
        cls .runHandler).1 id (.resume id (.success [])) := hall.2.2.1
    rw [hhandled] at hlast
    exact hlast ⟨_, rfl, .inr (hresume ▸ hnext)⟩

variable (cls) in
/-- A loop that is not cancelled goes on. -/
theorem exists_startsFurther (hid : Running s id) (hfresh : Fresh s)
    (h : s.cancelled id = false) : ∃ post, (sessionMachine M cls).Legal s post ∧
      ¬ (sessionMachine M cls).AllSteps (fun t e => ¬ StartsFurther cls t id e) s post := by
  obtain ⟨c, hc, hstarted⟩ := hid
  have hne : s.coroutines id ≠ none := by
    rw [hc]
    exact nofun
  cases c with
  | startWrite => exact absurd trivial hstarted
  | writeLoop => exact absurd trivial hstarted
  | readLoop => exact absurd trivial hstarted
  | timer message =>
    -- it writes what it has first
    have hresume : s.resume cls id (.success []) =
        (s.suspend id (.asyncWrite message), [.asyncWrite message]) := by
      unfold Session.resume
      rw [hc]
    obtain ⟨post, hlegal, hfurther⟩ := exists_startsFurther_of_asyncWrite cls
      (suspend_self s id (.asyncWrite message)) (hfresh.keepsOthers (.suspend s id _) hne) h
    have hstep : (s.step cls (.resume id (.success []))).1 = s.suspend id (.asyncWrite message) :=
      congrArg Prod.fst hresume
    refine ⟨.resume id (.success []) :: post, ⟨hne, ?_⟩, fun hall => hfurther ?_⟩
    · exact hstep ▸ hlegal
    · exact hstep ▸ hall.2
  | asyncWrite message => exact exists_startsFurther_of_asyncWrite cls hc hfresh h
  | asyncRead =>
    refine ⟨[.resume id (.success [])], ⟨hne, trivial⟩, fun hall => hall.1 ⟨_, rfl, .inl ?_⟩⟩
    unfold Session.resume
    rw [hc]
    dsimp only
    rw [readHead_of_not_cancelled h]
    simp

end Further

/-! ### Runs -/

/-- Each loop that runs has been cancelled before, or has its handler in the slot. -/
def SlotCoversRunning (s : Session M) : Prop :=
  ∀ id, Running s id → s.cancelled id = true ∨ s.cancelSlot = some id

section Runs

variable {cls : SessionClass} {s : Session M} {es : List (SessionEvent M)}

variable (cls) in
/-- The emission changes the flag of the loop whose handler is in the slot, and nothing else of the
loops. -/
theorem step_runStop (s : Session M) :
    (s.step cls .runStop).1.coroutines = s.coroutines ∧
      (s.step cls .runStop).1.spawned = s.spawned ∧
      ∀ id, (s.step cls .runStop).1.cancelled id = true ↔
        s.cancelled id = true ∨ s.cancelSlot = some id := by
  obtain ⟨cancelled, hcancelled, hemit⟩ := emit_eq { s with stopping := s.stopping - 1 }
  have hstep : (s.step cls .runStop).1 = { s with stopping := s.stopping - 1, cancelled } := hemit
  rw [hstep]
  exact ⟨rfl, rfl, hcancelled⟩

variable (cls) in
/-- A loop that the emission covers is stopped by it. -/
theorem stopped_runStop (hfresh : Fresh s) {id : ℕ} (hrunning : Running s id)
    (hcovers : s.cancelled id = true ∨ s.cancelSlot = some id) :
    Stopped (s.step cls .runStop).1 id := by
  obtain ⟨hcoroutines, hspawned, hcancelled⟩ := step_runStop cls s
  obtain ⟨c, hc, hstarted⟩ := hrunning
  have hid : s.coroutines id ≠ none := by
    rw [hc]
    exact nofun
  refine ⟨hspawned ▸ hfresh.lt hid, fun d hd => ?_⟩
  rw [hcoroutines] at hd
  obtain rfl : c = d := Option.some.inj (hc.symm.trans hd)
  exact ⟨(hcancelled id).mpr hcovers, hstarted⟩

/-- **Cancellation**: an emission ends all loops that run exactly when each of them has its handler
in the slot or was cancelled before; at most one loop has its handler there. -/
theorem reachesEveryLoop_iff
    (h : (sessionMachine M WebSocketSessionRW).Legal {} (es ++ [.runStop])) :
    ReachesEveryLoop WebSocketSessionRW ((sessionMachine M WebSocketSessionRW).final {} es) ↔
      SlotCoversRunning ((sessionMachine M WebSocketSessionRW).final {} es) := by
  rw [Machine.Legal, Machine.allSteps_append] at h
  have hfresh := Fresh.final h.1
  have hnext : Fresh (((sessionMachine M WebSocketSessionRW).final {} es).step WebSocketSessionRW
      .runStop).1 := hfresh.step h.2.1
  constructor
  · intro hreaches id hrunning
    by_contra hcovers
    obtain ⟨hcoroutines, -, hcancelled⟩ := step_runStop WebSocketSessionRW
      ((sessionMachine M WebSocketSessionRW).final {} es)
    rw [← hcancelled id, Bool.not_eq_true] at hcovers
    have hstill : Running (((sessionMachine M WebSocketSessionRW).final {} es).step
        WebSocketSessionRW .runStop).1 id := by
      obtain ⟨c, hc, hstarted⟩ := hrunning
      exact ⟨c, (congrFun hcoroutines id).trans hc, hstarted⟩
    obtain ⟨post, hlegal, hfurther⟩ := exists_startsFurther WebSocketSessionRW hstill hnext hcovers
    refine hfurther ?_
    have hall := hreaches post hlegal
    rw [Machine.allSteps_iff] at hall ⊢
    exact fun pre e rest heq => hall pre e rest heq id hrunning
  · intro hcovers post hlegal
    rw [Machine.allSteps_iff]
    rintro pre e rest rfl id hrunning
    have hstopped := stopped_runStop WebSocketSessionRW hfresh hrunning (hcovers id hrunning)
    have hall := hstopped.allSteps hnext hlegal
    rw [Machine.allSteps_iff] at hall
    exact hall pre e rest rfl

end Runs

/-- Only the `ReadLoop` runs when `StopAsync` is called. -/
def stopReading : List (SessionEvent String) :=
  connect ++ [.resume 0 (.success []), .resume 1 (.success []), .stopAsync]

theorem reachesEveryLoop_iff_stopReading : ReachesEveryLoop WebSocketSessionRW
    ((sessionMachine String WebSocketSessionRW).final {} stopReading) := by
  refine (reachesEveryLoop_iff (by decide)).mpr ?_
  rintro id ⟨c, hc, -⟩
  match id with
  | 0 => exact nomatch hc
  | 1 => exact .inr rfl
  | _ + 2 => exact nomatch hc

/-- Two messages are queued before the connection is made, and the `WriteLoop` of `Run` waits with
the first one when `StopAsync` is called; the `ReadLoop` has taken the slot. -/
def stopWriting : List (SessionEvent String) :=
  [.asyncWrite "subscribe", .runHandler, .resume 0 (.success []), .asyncWrite "ping", .runHandler,
    .resume 1 (.success [])] ++ connect ++
    [.resume 2 (.success []), .resume 3 (.success []), .stopAsync]

/-- It writes the first message and takes the second one. -/
theorem stopWriting_startsFurther :
    (sessionMachine String WebSocketSessionRW).Legal {} (stopWriting ++ [.runStop]) ∧
      ¬ ReachesEveryLoop WebSocketSessionRW
        ((sessionMachine String WebSocketSessionRW).final {} stopWriting) := by
  refine ⟨by decide, fun h => ?_⟩
  have hall := h [.resume 2 (.success []), .resume 2 (.success [])] (by decide)
  exact hall.2.1 2 ⟨.timer "subscribe", rfl, not_false⟩ ⟨_, rfl, .inr ⟨"ping", rfl⟩⟩

end CryptobotAlgo.Aoe.WebSocket
