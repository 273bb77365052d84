import CryptobotAlgo.Aoe.WebSocket.Session

/-!
# Which messages the sessions strand

A coroutine that goes on changes itself and leaves the others alone (`KeepsOthers`), so that a
message can only be left behind in two ways: its handler runs when no `WriteLoop` is left and its
`StartWrite` will not start one, or the last `WriteLoop` returns.  The second does not happen, since
a `WriteLoop` returns when the queue is empty.

The first happens in `WebSocketSessionW`, whose `Run` stores `false` in `session_ready_`
(`strandsNone_iff`).
-/

namespace CryptobotAlgo.Aoe.WebSocket

variable {M : Type}

/-! ### What a coroutine changes -/

theorem suspend_self (s : Session M) (id : ℕ) (c : Coroutine M) :
    (s.suspend id c).coroutines id = some c :=
  Function.update_self ..

theorem finish_self (s : Session M) (id : ℕ) : (s.finish id).coroutines id = none :=
  Function.update_self ..

/-- Only the coroutine `id`, the queue and the cancellation have changed. -/
structure KeepsOthers (id : ℕ) (s s' : Session M) : Prop where
  run : s'.run = s.run
  sessionReady : s'.sessionReady = s.sessionReady
  strand : s'.strand = s.strand
  spawned : s'.spawned = s.spawned
  stopping : s'.stopping = s.stopping
  coroutines : ∀ j, j ≠ id → s'.coroutines j = s.coroutines j

namespace KeepsOthers

variable {id : ℕ} {s s' s'' : Session M}

theorem trans (h : KeepsOthers id s s') (h' : KeepsOthers id s' s'') : KeepsOthers id s s'' where
  run := h'.run.trans h.run
  sessionReady := h'.sessionReady.trans h.sessionReady
  strand := h'.strand.trans h.strand
  spawned := h'.spawned.trans h.spawned
  stopping := h'.stopping.trans h.stopping
  coroutines := fun j hj => (h'.coroutines j hj).trans (h.coroutines j hj)

theorem suspend (s : Session M) (id : ℕ) (c : Coroutine M) : KeepsOthers id s (s.suspend id c) :=
  ⟨rfl, rfl, rfl, rfl, rfl, fun _ hj => Function.update_of_ne hj _ _⟩

theorem finish (s : Session M) (id : ℕ) : KeepsOthers id s (s.finish id) :=
  ⟨rfl, rfl, rfl, rfl, rfl, fun _ hj => Function.update_of_ne hj _ _⟩

theorem emit (s : Session M) (id : ℕ) : KeepsOthers id s s.emit := by
  unfold Session.emit
  split
  · exact ⟨rfl, rfl, rfl, rfl, rfl, fun _ _ => rfl⟩
  · exact ⟨rfl, rfl, rfl, rfl, rfl, fun _ _ => rfl⟩

theorem assignSlot (s : Session M) (id : ℕ) : KeepsOthers id s (s.assignSlot id) :=
  ⟨rfl, rfl, rfl, rfl, rfl, fun _ _ => rfl⟩

theorem writeHead (cls : SessionClass) (s : Session M) (id : ℕ) :
    KeepsOthers id s (s.writeHead cls id).1 := by
  unfold Session.writeHead
  split
  · exact finish s id
  · split
    · exact finish s id
    · exact ⟨rfl, rfl, rfl, rfl, rfl, fun _ hj => Function.update_of_ne hj _ _⟩

theorem endRead (s : Session M) (id : ℕ) : KeepsOthers id s (s.endRead id).1 :=
  (emit s id).trans (finish s.emit id)

theorem readHead (s : Session M) (id : ℕ) : KeepsOthers id s (s.readHead id).1 := by
  unfold Session.readHead
  split
  · exact endRead s id
  · exact suspend s id _

theorem resume (cls : SessionClass) (s : Session M) (id : ℕ) (completion : Completion) :
    KeepsOthers id s (s.resume cls id completion).1 := by
  unfold Session.resume
  split
  · exact ⟨rfl, rfl, rfl, rfl, rfl, fun _ _ => rfl⟩
  · -- `StartWrite`
    split
    · exact finish s id
    · exact (assignSlot s id).trans (writeHead cls _ id)
  · exact (assignSlot s id).trans (writeHead cls _ id)
  · exact suspend s id _
  · split
    · exact finish s id
    · exact writeHead cls s id
  · exact (assignSlot s id).trans (readHead _ id)
  · split
    · exact endRead s id
    · exact readHead s id

end KeepsOthers

/-! ### What is spawned -/

/-- The next coroutine is a new one. -/
def Fresh (s : Session M) : Prop := ∀ id, s.spawned ≤ id → s.coroutines id = none

/-- The coroutine has not started. -/
def Coroutine.Unstarted : Coroutine M → Prop
  | .startWrite | .writeLoop | .readLoop => True
  | .timer _ | .asyncWrite _ | .asyncRead => False

section Spawn

variable {cls : SessionClass} {s : Session M} {id : ℕ}

theorem Fresh.ne (h : Fresh s) {c : Coroutine M} (hid : s.coroutines id = some c) :
    id ≠ s.spawned := by
  rintro rfl
  have hnone : s.coroutines s.spawned = none := h _ (Nat.le_refl _)
  exact absurd (hnone.symm.trans hid) nofun

theorem Fresh.lt (h : Fresh s) (hid : s.coroutines id ≠ none) : id < s.spawned := by
  by_contra hge
  exact hid (h id (Nat.le_of_not_lt hge))

theorem Fresh.coSpawn (h : Fresh s) (c : Coroutine M) : Fresh (s.coSpawn c) := by
  intro id hid
  have hlt : s.spawned < id := hid
  show Function.update s.coroutines s.spawned _ id = none
  rw [Function.update_of_ne (Nat.ne_of_gt hlt)]
  exact h id (Nat.le_of_lt hlt)

theorem Fresh.keepsOthers {s' : Session M} (h : Fresh s) (hkeep : KeepsOthers id s s')
    (hid : s.coroutines id ≠ none) : Fresh s' := by
  intro j hj
  rw [hkeep.spawned] at hj
  have hne : j ≠ id := fun heq => hid (heq ▸ h j hj)
  rw [hkeep.coroutines j hne]
  exact h j hj

/-- A step in which no coroutine goes on. -/
inductive OtherStep (cls : SessionClass) (s : Session M) : SessionEvent M → Session M → Prop
  | asyncWrite (message : M) :
    OtherStep cls s (.asyncWrite message) { s with strand := s.strand ++ [message] }
  | runHandler {message : M} {rest : List M} (hstrand : s.strand = message :: rest) :
    OtherStep cls s .runHandler ({ s with strand := rest }.handler message)
  | connected (hrun : s.run = .asyncHandshake) :
    OtherStep cls s (.resumeRun true)
      ((({ s with run := .returned true, sessionReady := cls.readyAfterRun } : Session M).coSpawn
        .writeLoop).coSpawn .readLoop)
  | resumeRun {ok : Bool} {run : RunPc} (hrun : run ≠ .returned true)
    (hok : ok = true → s.run ≠ .asyncHandshake) :
    OtherStep cls s (.resumeRun ok) { s with run := run }
  | stopAsync (stopping : ℕ) : OtherStep cls s .stopAsync { s with stopping := stopping }
  | runStop {cancelled : ℕ → Bool}
    (hcancelled : ∀ id, cancelled id = true ↔ s.cancelled id = true ∨ s.cancelSlot = some id) :
    OtherStep cls s .runStop { s with stopping := s.stopping - 1, cancelled := cancelled }

/-- An emission reaches the loop whose handler is in the slot. -/
theorem emit_eq (s : Session M) :
    ∃ cancelled, (∀ id, cancelled id = true ↔ s.cancelled id = true ∨ s.cancelSlot = some id) ∧
      s.emit = { s with cancelled := cancelled } := by
  rcases Option.eq_none_or_eq_some s.cancelSlot with hslot | ⟨j, hslot⟩
  · have hemit : s.emit = s := by
      unfold Session.emit
      rw [hslot]
    exact ⟨s.cancelled, fun _ => by rw [hslot]; exact (or_iff_left nofun).symm, hemit⟩
  · have hemit : s.emit = { s with cancelled := Function.update s.cancelled j true } := by
      unfold Session.emit
      rw [hslot]
    refine ⟨_, fun id => ?_, hemit⟩
    rw [hslot]
    by_cases hid : id = j
    · subst hid
      rw [Function.update_self]
      exact iff_of_true rfl (.inr rfl)
    · rw [Function.update_of_ne hid]
      exact (or_iff_left fun heq => hid (Option.some.inj heq).symm).symm

variable (cls) in
/-- All that a step can do. -/
theorem step_cases {e : SessionEvent M} (he : s.Enabled e) :
    (∃ id completion, e = .resume id completion) ∨
      ∃ s', s.step cls e = (s', []) ∧ OtherStep cls s e s' := by
  cases e with
  | resume id completion => exact .inl ⟨id, completion, rfl⟩
  | asyncWrite message => exact .inr ⟨_, rfl, .asyncWrite message⟩
  | runHandler =>
    obtain ⟨message, rest, hstrand⟩ := List.exists_cons_of_ne_nil he
    refine .inr ⟨_, ?_, .runHandler hstrand⟩
    unfold Session.step
    dsimp only
    rw [hstrand]
  | resumeRun ok =>
    cases ok with
    | false => exact .inr ⟨_, rfl, .resumeRun nofun nofun⟩
    | true =>
      refine .inr ⟨s.resumeRun cls, rfl, ?_⟩
      unfold Session.resumeRun
      cases hrun : s.run with
      | spawned => exact .resumeRun nofun fun _ => by rw [hrun]; exact nofun
      | asyncResolve => exact .resumeRun nofun fun _ => by rw [hrun]; exact nofun
      | asyncConnect => exact .resumeRun nofun fun _ => by rw [hrun]; exact nofun
      | sslHandshake => exact .resumeRun nofun fun _ => by rw [hrun]; exact nofun
      | asyncHandshake => exact .connected hrun
      | returned connected => exact absurd hrun (he.1 connected)
  | stopAsync =>
    refine .inr ⟨_, rfl, ?_⟩
    split
    · exact .stopAsync (s.stopping + 1)
    · exact .stopAsync s.stopping
  | runStop =>
    obtain ⟨cancelled, hcancelled, hemit⟩ := emit_eq { s with stopping := s.stopping - 1 }
    refine .inr ⟨_, rfl, ?_⟩
    rw [hemit]
    exact .runStop hcancelled

theorem OtherStep.fresh {e : SessionEvent M} {s' : Session M} (h : OtherStep cls s e s')
    (hfresh : Fresh s) : Fresh s' := by
  cases h with
  | asyncWrite message => exact hfresh
  | runHandler hstrand =>
    exact Fresh.coSpawn (s := { s with strand := _, messageQueue := _ }) hfresh .startWrite
  | connected hrun =>
    exact (Fresh.coSpawn (s := { s with run := _, sessionReady := _ }) hfresh _).coSpawn _
  | resumeRun hrun hok => exact hfresh
  | stopAsync stopping => exact hfresh
  | runStop hcancelled => exact hfresh

theorem Fresh.step (h : Fresh s) {e : SessionEvent M} (he : s.Enabled e) :
    Fresh (s.step cls e).1 := by
  rcases step_cases cls he with ⟨id, completion, rfl⟩ | ⟨s', hstep, hother⟩
  · exact h.keepsOthers (.resume cls s id completion) he
  · rw [hstep]
    exact hother.fresh h

/-- The coroutines stay as they are, and those that are new have not started. -/
structure SpawnsOnly (s s' : Session M) : Prop where
  spawned : s.spawned ≤ s'.spawned
  old : ∀ j c, s.coroutines j = some c → s'.coroutines j = some c
  new : ∀ j c, s'.coroutines j = some c → s.coroutines j = some c ∨ s.spawned ≤ j ∧ c.Unstarted

theorem SpawnsOnly.of_eq {s' : Session M} (hspawned : s'.spawned = s.spawned)
    (h : s'.coroutines = s.coroutines) : SpawnsOnly s s' where
  spawned := Nat.le_of_eq hspawned.symm
  old := fun j _ hj => (congrFun h j).trans hj
  new := fun j _ hj => .inl ((congrFun h j).symm.trans hj)

theorem SpawnsOnly.trans {s' s'' : Session M} (h : SpawnsOnly s s') (h' : SpawnsOnly s' s'') :
    SpawnsOnly s s'' where
  spawned := Nat.le_trans h.spawned h'.spawned
  old := fun j c hj => h'.old j c (h.old j c hj)
  new := fun j c hj => by
    rcases h'.new j c hj with hold | ⟨hle, hc⟩
    · exact h.new j c hold
    · exact .inr ⟨Nat.le_trans h.spawned hle, hc⟩

theorem SpawnsOnly.coSpawn (h : Fresh s) {c : Coroutine M} (hc : c.Unstarted) :
    SpawnsOnly s (s.coSpawn c) where
  spawned := Nat.le_succ s.spawned
  old := fun j _ hj => (Function.update_of_ne (h.ne hj) _ _).trans hj
  new := fun j d hj => by
    by_cases hne : j = s.spawned
    · subst hne
      have hnew : (s.coSpawn c).coroutines s.spawned = some c := Function.update_self ..
      obtain rfl : c = d := Option.some.inj (hnew.symm.trans hj)
      exact .inr ⟨Nat.le_refl _, hc⟩
    · exact .inl ((Function.update_of_ne hne _ _).symm.trans hj)

theorem OtherStep.spawnsOnly {e : SessionEvent M} {s' : Session M} (h : OtherStep cls s e s')
    (hfresh : Fresh s) : SpawnsOnly s s' := by
  cases h with
  | asyncWrite message => exact .of_eq rfl rfl
  | runHandler hstrand =>
    have hspawn : SpawnsOnly s (s.coSpawn .startWrite) := .coSpawn hfresh trivial
    exact ⟨hspawn.spawned, hspawn.old, hspawn.new⟩
  | connected hrun =>
    have hwrite : SpawnsOnly s (s.coSpawn .writeLoop) := .coSpawn hfresh trivial
    have hread : SpawnsOnly s ((s.coSpawn .writeLoop).coSpawn .readLoop) :=
      hwrite.trans (.coSpawn (hfresh.coSpawn _) trivial)
    exact ⟨hread.spawned, hread.old, hread.new⟩
  | resumeRun hrun hok => exact .of_eq rfl rfl
  | stopAsync stopping => exact .of_eq rfl rfl
  | runStop hcancelled => exact .of_eq rfl rfl

theorem Fresh.final {es : List (SessionEvent M)} (h : (sessionMachine M cls).Legal {} es) :
    Fresh ((sessionMachine M cls).final {} es) :=
  (sessionMachine M cls).invariant (P := fun s _ => Fresh s) (fun _ _ _ he hfresh => hfresh.step he)
    (fun _ _ => rfl) h

end Spawn

/-! ### Writers -/

/-- The coroutine is a `WriteLoop`, or will start one if nobody changes `session_ready_`. -/
def Coroutine.IsWriter (sessionReady : Bool) : Coroutine M → Prop
  | .startWrite => sessionReady = true
  | .writeLoop | .timer _ | .asyncWrite _ => True
  | .readLoop | .asyncRead => False

/-- A `WriteLoop` is running, or a coroutine that will start one is pending. -/
def WriterAlive (s : Session M) : Prop :=
  ∃ id c, s.coroutines id = some c ∧ c.IsWriter s.sessionReady

/-- After `Run` has completed, a message in the queue has somebody to write it. -/
def NoStranding (s : Session M) : Prop :=
  s.run = .returned true → s.messageQueue ≠ [] → WriterAlive s

/-- No write fails, and nothing is cancelled, not by a read that fails either; `Run` may fail. -/
def Undisturbed : SessionEvent M → Prop
  | .asyncWrite _ | .runHandler | .resumeRun _ | .resume _ (.success _) => True
  | .resume _ .error | .stopAsync | .runStop => False

instance (e : SessionEvent M) : Decidable (Undisturbed e) :=
  match e with
  | .asyncWrite _ | .runHandler | .resumeRun _ | .resume _ (.success _) => isTrue trivial
  | .resume _ .error | .stopAsync | .runStop => isFalse not_false

/-- The session as long as it is undisturbed. -/
def undisturbedMachine (M : Type) (cls : SessionClass) :
    Machine (Session M) (SessionEvent M) (SessionAction M) :=
  { sessionMachine M cls with enabled := fun s e => s.Enabled e ∧ Undisturbed e }

instance [DecidableEq M] (cls : SessionClass) (s : Session M) (e : SessionEvent M) :
    Decidable ((undisturbedMachine M cls).enabled s e) :=
  inferInstanceAs (Decidable (s.Enabled e ∧ Undisturbed e))

/-- Nothing has been cancelled, `session_ready_` is what `Run` has stored, and the next coroutine is
a new one. -/
structure SessionInv (cls : SessionClass) (s : Session M) : Prop where
  notCancelled : ∀ id, s.cancelled id = false
  ready : s.run = .returned true → s.sessionReady = cls.readyAfterRun
  fresh : ∀ id, s.spawned ≤ id → s.coroutines id = none

section Step

variable {cls : SessionClass} {s s' : Session M} {id : ℕ}

theorem SessionInv.new (cls : SessionClass) : SessionInv cls ({} : Session M) where
  notCancelled := fun _ => rfl
  ready := nofun
  fresh := fun _ _ => rfl

/-- The coroutine `id` goes on. -/
theorem SessionInv.keepsOthers (h : SessionInv cls s) (hkeep : KeepsOthers id s s')
    (hid : s.coroutines id ≠ none) (hcancelled : ∀ j, s'.cancelled j = false) :
    SessionInv cls s' where
  notCancelled := hcancelled
  ready := fun hrun => hkeep.sessionReady.trans (h.ready (hkeep.run ▸ hrun))
  fresh := Fresh.keepsOthers h.fresh hkeep hid

theorem SessionInv.coSpawn (h : SessionInv cls s) (c : Coroutine M) :
    SessionInv cls (s.coSpawn c) where
  notCancelled := h.notCancelled
  ready := h.ready
  fresh := Fresh.coSpawn h.fresh c

theorem notCancelled_assignSlot (h : ∀ j, s.cancelled j = false) (id : ℕ) :
    ∀ j, (s.assignSlot id).cancelled j = false := by
  intro j
  show Function.update s.cancelled id false j = false
  by_cases hj : j = id
  · rw [hj, Function.update_self]
  · rw [Function.update_of_ne hj]
    exact h j

theorem cancelled_writeHead (cls : SessionClass) (s : Session M) (id : ℕ) :
    (s.writeHead cls id).1.cancelled = s.cancelled := by
  unfold Session.writeHead
  split
  · rfl
  · split
    · rfl
    · rfl

theorem readHead_of_not_cancelled (h : s.cancelled id = false) :
    s.readHead id = (s.suspend id .asyncRead, [.asyncRead]) :=
  if_neg (by rw [h]; exact Bool.false_ne_true)

/-- What succeeds cancels nothing. -/
theorem notCancelled_resume (h : ∀ j, s.cancelled j = false) (id : ℕ) (data : List UInt8) :
    ∀ j, (s.resume cls id (.success data)).1.cancelled j = false := by
  have hassign := notCancelled_assignSlot h id
  unfold Session.resume
  split
  · exact h
  · split
    · exact h
    · rw [cancelled_writeHead]
      exact hassign
  · rw [cancelled_writeHead]
    exact hassign
  · exact h
  · show ∀ j, (s.writeHead cls id).1.cancelled j = false
    rw [cancelled_writeHead]
    exact h
  · rw [readHead_of_not_cancelled (hassign id)]
    exact hassign
  · show ∀ j, (s.readHead id).1.cancelled j = false
    rw [readHead_of_not_cancelled (h id)]
    exact h

theorem SessionInv.step (h : SessionInv cls s) {e : SessionEvent M} (he : s.Enabled e)
    (hquiet : Undisturbed e) : SessionInv cls (s.step cls e).1 := by
  rcases step_cases cls he with ⟨id, completion, rfl⟩ | ⟨s', hstep, hother⟩
  · cases completion with
    | success data =>
      exact h.keepsOthers (.resume cls s id _) he (notCancelled_resume h.notCancelled id data)
    | error => exact hquiet.elim
  · rw [hstep]
    refine ⟨?_, ?_, hother.fresh h.fresh⟩
    · cases hother with
      | runStop hcancelled => exact hquiet.elim
      | _ => exact h.notCancelled
    · cases hother with
      | connected hrun => exact fun _ => rfl
      | resumeRun hrun hok => exact fun hreturned => absurd hreturned hrun
      | _ => exact h.ready

/-! ### Who is left to write -/

theorem WriterAlive.of_coroutine {c : Coroutine M} (hid : s.coroutines id = some c)
    (hc : c.IsWriter s.sessionReady) : WriterAlive s :=
  ⟨id, c, hid, hc⟩

/-- Another coroutine than a writer goes on. -/
theorem WriterAlive.keepsOthers (h : WriterAlive s) (hkeep : KeepsOthers id s s')
    (hid : ∀ c, s.coroutines id = some c → ¬ c.IsWriter s.sessionReady) : WriterAlive s' := by
  obtain ⟨j, c, hj, hc⟩ := h
  have hne : j ≠ id := fun heq => hid c (heq ▸ hj) hc
  exact ⟨j, c, (hkeep.coroutines j hne).trans hj, hkeep.sessionReady ▸ hc⟩

theorem writerAlive_coSpawn (hfresh : s.coroutines s.spawned = none) (c : Coroutine M) :
    WriterAlive (s.coSpawn c) ↔ c.IsWriter s.sessionReady ∨ WriterAlive s := by
  have hnew : (s.coSpawn c).coroutines s.spawned = some c := Function.update_self ..
  have hold : ∀ j, j ≠ s.spawned → (s.coSpawn c).coroutines j = s.coroutines j :=
    fun j hj => Function.update_of_ne hj _ _
  constructor
  · rintro ⟨j, d, hj, hd⟩
    by_cases heq : j = s.spawned
    · subst heq
      obtain rfl : c = d := Option.some.inj (hnew.symm.trans hj)
      exact .inl hd
    · exact .inr ⟨j, d, (hold j heq).symm.trans hj, hd⟩
  · rintro (hc | ⟨j, d, hj, hd⟩)
    · exact ⟨_, c, hnew, hc⟩
    · have hne : j ≠ s.spawned := by
        rintro rfl
        exact absurd (hfresh.symm.trans hj) nofun
      exact ⟨j, d, (hold j hne).trans hj, hd⟩

/-- A `WriteLoop` returns only when it leaves no message behind. -/
theorem noStranding_writeHead (cls : SessionClass) (h : s.cancelled id = false) :
    NoStranding (s.writeHead cls id).1 := by
  intro _ hqueue
  unfold Session.writeHead at hqueue ⊢
  rw [if_neg (by rw [h]; exact Bool.false_ne_true)] at hqueue ⊢
  cases hmessages : s.messageQueue with
  | nil =>
    rw [hmessages] at hqueue
    exact absurd hmessages hqueue
  | cons message rest => exact .of_coroutine (Function.update_self ..) trivial

theorem NoStranding.keepsOthers (h : NoStranding s) (hkeep : KeepsOthers id s s')
    (hid : ∀ c, s.coroutines id = some c → ¬ c.IsWriter s.sessionReady)
    (hqueue : s'.messageQueue = s.messageQueue) : NoStranding s' := by
  intro hrun hmessages
  rw [hkeep.run] at hrun
  rw [hqueue] at hmessages
  exact (h hrun hmessages).keepsOthers hkeep hid

/-- No coroutine strands a message by going on. -/
theorem NoStranding.resume (h : NoStranding s) (hcancelled : ∀ j, s.cancelled j = false) (id : ℕ)
    (data : List UInt8) : NoStranding (s.resume cls id (.success data)).1 := by
  have hassign := notCancelled_assignSlot hcancelled id
  unfold Session.resume
  cases hid : s.coroutines id with
  | none => exact h
  | some c =>
    have hother : ¬ c.IsWriter s.sessionReady →
        ∀ d, s.coroutines id = some d → ¬ d.IsWriter s.sessionReady := by
      intro hc d hd
      obtain rfl : c = d := Option.some.inj (hid.symm.trans hd)
      exact hc
    cases c with
    | startWrite =>
      cases hready : s.sessionReady with
      | false =>
        -- it was no writer
        refine h.keepsOthers (.finish s id) (hother ?_) rfl
        rw [hready]
        exact Bool.false_ne_true
      | true => exact noStranding_writeHead cls (hassign id)
    | writeLoop => exact noStranding_writeHead cls (hassign id)
    | timer message => exact fun _ _ => .of_coroutine (Function.update_self ..) trivial
    | asyncWrite message => exact noStranding_writeHead cls (hcancelled id)
    | readLoop =>
      dsimp only
      rw [readHead_of_not_cancelled (hassign id)]
      exact h.keepsOthers ((KeepsOthers.assignSlot s id).trans (.suspend _ id _))
        (hother not_false) rfl
    | asyncRead =>
      dsimp only
      rw [readHead_of_not_cancelled (hcancelled id)]
      exact h.keepsOthers (.suspend s id _) (hother not_false) rfl

/-- A handler strands its message when `session_ready_` is false and no writer is left. -/
theorem noStranding_handler_iff (hinv : SessionInv cls s) {message : M} {rest : List M} :
    NoStranding ({ s with strand := rest }.handler message) ↔
      (s.run = .returned true → cls.readyAfterRun = true ∨ WriterAlive s) := by
  have hwriter : WriterAlive ({ s with strand := rest }.handler message) ↔
      s.sessionReady = true ∨ WriterAlive s :=
    writerAlive_coSpawn (hinv.fresh _ (Nat.le_refl _)) .startWrite
  constructor
  · intro hnext hrun
    rw [← hinv.ready hrun]
    have hqueue : s.messageQueue ++ [message] ≠ [] := by simp
    exact hwriter.mp (hnext hrun hqueue)
  · intro hcond hrun _
    refine hwriter.mpr ?_
    rw [hinv.ready hrun]
    exact hcond hrun

/-- `Run` leaves a `WriteLoop` behind. -/
theorem writerAlive_connected (s : Session M) :
    WriterAlive ((s.coSpawn .writeLoop).coSpawn .readLoop) := by
  refine ⟨s.spawned, .writeLoop, ?_, trivial⟩
  have hne : s.spawned ≠ s.spawned + 1 := Nat.ne_of_lt (Nat.lt_succ_self _)
  show Function.update (Function.update s.coroutines s.spawned _) (s.spawned + 1) _ _ = _
  rw [Function.update_of_ne hne, Function.update_self]

/-- Only a handler can strand a message. -/
theorem noStranding_step_iff (hinv : SessionInv cls s) (h : NoStranding s) {e : SessionEvent M}
    (he : s.Enabled e) (hquiet : Undisturbed e) :
    NoStranding (s.step cls e).1 ↔
      (e = .runHandler → s.run = .returned true → cls.readyAfterRun = true ∨ WriterAlive s) := by
  rcases step_cases cls he with ⟨id, completion, rfl⟩ | ⟨s', hstep, hother⟩
  · cases completion with
    | success data => exact iff_of_true (h.resume hinv.notCancelled id data) nofun
    | error => exact hquiet.elim
  · rw [hstep]
    cases hother with
    | asyncWrite message => exact iff_of_true h nofun
    | runHandler hstrand => rw [noStranding_handler_iff hinv, imp_iff_right rfl]
    | connected hrun => exact iff_of_true (fun _ _ => writerAlive_connected _) nofun
    | resumeRun hrun hok => exact iff_of_true (fun hreturned => absurd hreturned hrun) nofun
    | stopAsync stopping => exact hquiet.elim
    | runStop hcancelled => exact hquiet.elim

end Step

/-! ### Runs -/

/-- After every part of the run nothing is stranded. -/
def StrandsNone (cls : SessionClass) (es : List (SessionEvent M)) : Prop :=
  ∀ pre post, es = pre ++ post → NoStranding ((undisturbedMachine M cls).final {} pre)

theorem SessionInv.final {cls : SessionClass} {es : List (SessionEvent M)}
    (h : (undisturbedMachine M cls).Legal {} es) :
    SessionInv cls ((undisturbedMachine M cls).final {} es) :=
  (undisturbedMachine M cls).invariant (P := fun s _ => SessionInv cls s)
    (fun _ _ _ he hinv => hinv.step he.1 he.2) (.new cls) h

/-- A run strands nothing exactly when no handler finds the session connected, but without a writer
and with `session_ready_` false. -/
theorem strandsNone_iff_allSteps {cls : SessionClass} {es : List (SessionEvent M)}
    (h : (undisturbedMachine M cls).Legal {} es) :
    StrandsNone cls es ↔ (undisturbedMachine M cls).AllSteps (fun s e => e = .runHandler →
      s.run = .returned true → cls.readyAfterRun = true ∨ WriterAlive s) {} es := by
  rw [Machine.allSteps_iff]
  refine Machine.forall_prefix_iff nofun fun pre e post hes hpre => ?_
  rw [Machine.final_concat]
  have hlegal : (undisturbedMachine M cls).AllSteps _ {} (pre ++ e :: post) := hes ▸ h
  rw [Machine.allSteps_append, Machine.allSteps_cons] at hlegal
  exact noStranding_step_iff (SessionInv.final hlegal.1) hpre hlegal.2.1.1 hlegal.2.1.2

/-- The handler of a message runs after `Run` has completed only while there is a writer. -/
def HandledWithWriter (s : Session M) (e : SessionEvent M) : Prop :=
  e = .runHandler → s.run = .returned true → WriterAlive s

/-- **Stranded messages**: `WebSocketSessionRW` strands none, and `WebSocketSessionW` none exactly
when every handler that runs after `Run` has completed finds a writer. -/
theorem strandsNone_iff (es : List (SessionEvent M)) :
    ((undisturbedMachine M WebSocketSessionRW).Legal {} es → StrandsNone WebSocketSessionRW es) ∧
      ((undisturbedMachine M WebSocketSessionW).Legal {} es →
        (StrandsNone WebSocketSessionW es ↔
          (undisturbedMachine M WebSocketSessionW).AllSteps HandledWithWriter {} es)) := by
  constructor
  · intro h
    rw [strandsNone_iff_allSteps h, Machine.allSteps_iff]
    exact fun _ _ _ _ _ _ => .inl rfl
  · intro h
    rw [strandsNone_iff_allSteps h, Machine.allSteps_iff, Machine.allSteps_iff]
    have hnotReady : ∀ s : Session M,
        WebSocketSessionW.readyAfterRun = true ∨ WriterAlive s ↔ WriterAlive s :=
      fun _ => or_iff_right Bool.false_ne_true
    simp only [hnotReady, HandledWithWriter]

/-- `Run` connects. -/
def connect : List (SessionEvent String) :=
  [.resumeRun true, .resumeRun true, .resumeRun true, .resumeRun true, .resumeRun true]

/-- A message is queued before the connection is made, and a message after it, while the `WriteLoop`
of `Run` writes the first one. -/
def writeEarly : List (SessionEvent String) :=
  [.asyncWrite "subscribe", .runHandler, .resume 0 (.success [])] ++ connect ++
    [.resume 1 (.success []), .asyncWrite "ping", .runHandler, .resume 1 (.success [])]

theorem strandsNone_iff_writeEarly :
    StrandsNone WebSocketSessionRW writeEarly ∧ StrandsNone WebSocketSessionW writeEarly := by
  have hiff := strandsNone_iff writeEarly
  refine ⟨hiff.1 (by decide), (hiff.2 (by decide)).mpr ?_⟩
  refine ⟨nofun, fun _ => nofun, nofun, nofun, nofun, nofun, nofun, nofun, nofun, nofun, ?_, nofun,
    trivial⟩
  intro _ _
  exact ⟨1, .timer "subscribe", rfl, trivial⟩

/-- The `WriteLoop` of `Run` has found the queue empty before a message is queued. -/
def writeLate : List (SessionEvent String) :=
  connect ++ [.resume 0 (.success []), .asyncWrite "ping", .runHandler, .resume 2 (.success [])]

/-- `WebSocketSessionW` never sends it. -/
theorem writeLate_strands : (undisturbedMachine String WebSocketSessionW).Legal {} writeLate ∧
    ¬ StrandsNone WebSocketSessionW writeLate := by
  have hlegal : (undisturbedMachine String WebSocketSessionW).Legal {} writeLate := by decide
  refine ⟨hlegal, fun h => ?_⟩
  obtain ⟨id, c, hid, hc⟩ := h writeLate [] rfl rfl (by decide)
  -- the only coroutine that is left is the `ReadLoop`
  have hlt : id < 3 := by
    by_contra hge
    exact absurd (((SessionInv.final hlegal).fresh id (Nat.le_of_not_lt hge)).symm.trans hid) nofun
  match id, hlt with
  | 0, _ => exact absurd hid nofun
  | 1, _ =>
    obtain rfl : Coroutine.readLoop = c := Option.some.inj hid
    exact hc
  | 2, _ => exact absurd hid nofun

end CryptobotAlgo.Aoe.WebSocket
