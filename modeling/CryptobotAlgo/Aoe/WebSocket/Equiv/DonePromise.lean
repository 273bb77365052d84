import CryptobotAlgo.Aoe.WebSocket.Equiv.Session
import CryptobotAlgo.Machine.Potential
import Mathlib.Algebra.BigOperators.Group.Finset.Basic

/-!
# How often the write promise is set

Every `WriteLoop` of `WebSocketSessionRW` sets `write_done_promise_` when it returns, and there is
one promise for all of them.  The loops that were started are those that still run and those that
have set it (`doneCount_add_writeLoops`), and a loop that runs can be brought to its end
(`exists_writeLoops_eq_zero`).  `Run` starts one loop, so that the promise is set twice, sooner or
later, exactly when a `StartWrite` has started another one (`doneOnce_iff`).
-/

namespace CryptobotAlgo.Aoe.WebSocket

open Finset

variable {M : Type}

/-- The number of times `write_done_promise_` is set. -/
def doneCount (actions : List (SessionAction M)) : ℕ :=
  actions.countP fun
    | .writeDone => true
    | _ => false

/-- One for a `WriteLoop`, started or not. -/
def loopsAt : Option (Coroutine M) → ℕ
  | some .writeLoop | some (.timer _) | some (.asyncWrite _) => 1
  | none | some .startWrite | some .readLoop | some .asyncRead => 0

def sumCoroutines (f : Option (Coroutine M) → ℕ) (s : Session M) : ℕ :=
  ∑ id ∈ range s.spawned, f (s.coroutines id)

/-- The number of `WriteLoop`s that have not returned. -/
def writeLoops (s : Session M) : ℕ := sumCoroutines loopsAt s

/-- `Run` completes, and spawns its `WriteLoop`. -/
def runStarts (s : Session M) : SessionEvent M → ℕ
  | .resumeRun true => if s.run = .asyncHandshake then 1 else 0
  | _ => 0

/-- One for a `StartWrite` that finds the session ready. -/
def becomesLoop : Option (Coroutine M) → Bool → ℕ
  | some .startWrite, true => 1
  | _, _ => 0

/-- A `StartWrite` becomes a `WriteLoop`. -/
def startWriteStarts (s : Session M) : SessionEvent M → ℕ
  | .resume id _ => becomesLoop (s.coroutines id) s.sessionReady
  | _ => 0

/-- The `WriteLoop`s that a step starts. -/
def loopStarts (s : Session M) (e : SessionEvent M) : ℕ := runStarts s e + startWriteStarts s e

/-- A `StartWrite` goes on only before the session is ready. -/
def NoSecondLoop (s : Session M) (e : SessionEvent M) : Prop :=
  ∀ id completion, e = .resume id completion → s.coroutines id = some .startWrite →
    s.sessionReady = false

/-! ### What a step does to the number of loops -/

theorem doneCount_append (actions actions' : List (SessionAction M)) :
    doneCount (actions ++ actions') = doneCount actions + doneCount actions' :=
  List.countP_append

section Step

variable {cls : SessionClass} {s s' : Session M} {id : ℕ}

/-- Only the coroutine `id` changes. -/
theorem sumCoroutines_keepsOthers (f : Option (Coroutine M) → ℕ) (h : KeepsOthers id s s')
    (hid : id < s.spawned) :
    sumCoroutines f s' + f (s.coroutines id) = sumCoroutines f s + f (s'.coroutines id) := by
  have hmem : id ∈ range s.spawned := mem_range.mpr hid
  have hrest : ∑ j ∈ (range s.spawned).erase id, f (s'.coroutines j) =
      ∑ j ∈ (range s.spawned).erase id, f (s.coroutines j) :=
    sum_congr rfl fun j hj => by rw [h.coroutines j (mem_erase.mp hj).1]
  have hold := add_sum_erase (range s.spawned) (fun j => f (s.coroutines j)) hmem
  have hnew := add_sum_erase (range s.spawned) (fun j => f (s'.coroutines j)) hmem
  unfold sumCoroutines
  rw [h.spawned]
  omega

theorem sumCoroutines_coSpawn (f : Option (Coroutine M) → ℕ) (s : Session M) (c : Coroutine M) :
    sumCoroutines f (s.coSpawn c) = sumCoroutines f s + f (some c) := by
  unfold sumCoroutines
  show ∑ j ∈ range (s.spawned + 1), f (Function.update s.coroutines s.spawned (some c) j) = _
  rw [sum_range_succ, Function.update_self]
  congr 1
  refine sum_congr rfl fun j hj => ?_
  rw [Function.update_of_ne (Nat.ne_of_lt (mem_range.mp hj))]

/-- A loop at the head of its `while` goes on, or sets the promise. -/
theorem doneCount_writeHead (hdone : cls.doneOnEmpty = true) (s : Session M) (id : ℕ) :
    doneCount (s.writeHead cls id).2 + loopsAt ((s.writeHead cls id).1.coroutines id) = 1 := by
  unfold Session.writeHead
  split
  · rw [finish_self]
    rfl
  · split
    · rw [finish_self]
      rfl
    · rw [suspend_self]
      rfl

theorem doneCount_endRead (s : Session M) (id : ℕ) :
    doneCount (s.endRead id).2 + loopsAt ((s.endRead id).1.coroutines id) = 0 := by
  unfold Session.endRead
  rw [finish_self]
  rfl

theorem doneCount_readHead (s : Session M) (id : ℕ) :
    doneCount (s.readHead id).2 + loopsAt ((s.readHead id).1.coroutines id) = 0 := by
  unfold Session.readHead
  split
  · exact doneCount_endRead s id
  · rw [suspend_self]
    rfl

/-- A coroutine that was a loop, or becomes one, is a loop or has set the promise. -/
theorem doneCount_resume (hdone : cls.doneOnEmpty = true) (s : Session M) (id : ℕ)
    (completion : Completion) :
    doneCount (s.resume cls id completion).2 +
        loopsAt ((s.resume cls id completion).1.coroutines id) =
      loopsAt (s.coroutines id) + startWriteStarts s (.resume id completion) := by
  show _ = _ + becomesLoop (s.coroutines id) s.sessionReady
  unfold Session.resume
  cases hid : s.coroutines id with
  | none =>
    show 0 + loopsAt (s.coroutines id) = 0
    rw [hid]
    rfl
  | some c =>
    cases c with
    | startWrite =>
      cases hready : s.sessionReady with
      | false =>
        show doneCount [] + loopsAt ((s.finish id).coroutines id) = 0
        rw [finish_self]
        rfl
      | true => exact doneCount_writeHead hdone (s.assignSlot id) id
    | writeLoop => exact doneCount_writeHead hdone (s.assignSlot id) id
    | timer message =>
      show 0 + loopsAt ((s.suspend id (.asyncWrite message)).coroutines id) = 1
      rw [suspend_self]
      rfl
    | asyncWrite message =>
      cases completion with
      | error =>
        show 1 + loopsAt ((s.finish id).coroutines id) = 1
        rw [finish_self]
        rfl
      | success data => exact doneCount_writeHead hdone s id
    | readLoop => exact doneCount_readHead (s.assignSlot id) id
    | asyncRead =>
      cases completion with
      | error => exact doneCount_endRead s id
      | success data =>
        have hread := doneCount_readHead s id
        dsimp only
        rw [doneCount_append]
        split
        · exact (Nat.add_assoc 0 _ _).trans ((Nat.zero_add _).trans hread)
        · exact (Nat.add_assoc 0 _ _).trans ((Nat.zero_add _).trans hread)

theorem runStarts_eq_zero {ok : Bool} (hok : ok = true → s.run ≠ .asyncHandshake) :
    runStarts s (.resumeRun ok) = 0 := by
  cases ok with
  | false => rfl
  | true => exact if_neg (hok rfl)

theorem OtherStep.writeLoops {e : SessionEvent M} (h : OtherStep cls s e s') :
    WebSocket.writeLoops s' = WebSocket.writeLoops s + loopStarts s e := by
  cases h with
  | runHandler hstrand => exact sumCoroutines_coSpawn loopsAt s .startWrite
  | connected hrun =>
    have hwrite := sumCoroutines_coSpawn loopsAt s .writeLoop
    have hread := sumCoroutines_coSpawn loopsAt (s.coSpawn .writeLoop) .readLoop
    have hstarts : runStarts s (.resumeRun true) = 1 := if_pos hrun
    show sumCoroutines loopsAt ((s.coSpawn .writeLoop).coSpawn .readLoop) =
      sumCoroutines loopsAt s + (runStarts s (.resumeRun true) + 0)
    rw [hread, hwrite, hstarts]
    rfl
  | resumeRun hrun hok =>
    show WebSocket.writeLoops s = WebSocket.writeLoops s + (runStarts s (.resumeRun _) + 0)
    rw [runStarts_eq_zero hok]
    rfl
  | _ => rfl

/-- The loops that start go on, or set the promise. -/
theorem doneCount_step (hdone : cls.doneOnEmpty = true) (hfresh : Fresh s) {e : SessionEvent M}
    (he : s.Enabled e) : doneCount (s.step cls e).2 + writeLoops (s.step cls e).1 =
      writeLoops s + loopStarts s e := by
  rcases step_cases cls he with ⟨id, completion, rfl⟩ | ⟨s', hstep, hother⟩
  · have hloops := sumCoroutines_keepsOthers loopsAt (.resume cls s id completion) (hfresh.lt he)
    have hresume := doneCount_resume hdone s id completion
    show doneCount (s.resume cls id completion).2 +
      sumCoroutines loopsAt (s.resume cls id completion).1 =
        sumCoroutines loopsAt s + (0 + startWriteStarts s (.resume id completion))
    omega
  · rw [hstep, hother.writeLoops]
    exact Nat.zero_add _

/-! ### What starts a loop -/

/-- One once `Run` has completed. -/
def connected (s : Session M) : ℕ := if s.run = .returned true then 1 else 0

theorem connected_le_one (s : Session M) : connected s ≤ 1 := by
  unfold connected
  split
  · exact Nat.le_refl 1
  · exact Nat.zero_le 1

theorem OtherStep.connected_eq {e : SessionEvent M} (h : OtherStep cls s e s') (he : s.Enabled e) :
    WebSocket.connected s' = WebSocket.connected s + runStarts s e := by
  cases h with
  | connected hrun =>
    have hstarts : runStarts s (.resumeRun true) = 1 := if_pos hrun
    have hnot : WebSocket.connected s = 0 := if_neg (he.1 true)
    rw [hnot, hstarts]
    rfl
  | resumeRun hrun hok =>
    have hnot : WebSocket.connected s = 0 := if_neg (he.1 true)
    rw [hnot, runStarts_eq_zero hok]
    exact if_neg hrun
  | _ => rfl

/-- `Run` completes once. -/
theorem connected_step {e : SessionEvent M} (he : s.Enabled e) :
    connected (s.step cls e).1 = connected s + runStarts s e := by
  rcases step_cases cls he with ⟨id, completion, rfl⟩ | ⟨s', hstep, hother⟩
  · have hrun : (s.resume cls id completion).1.run = s.run :=
      (KeepsOthers.resume cls s id completion).run
    show connected (s.resume cls id completion).1 = connected s
    unfold connected
    rw [hrun]
  · rw [hstep]
    exact hother.connected_eq he

/-- The session is ready only once `Run` has completed. -/
def ReadyConnected (s : Session M) : Prop := s.sessionReady = true → s.run = .returned true

theorem ReadyConnected.step (h : ReadyConnected s) {e : SessionEvent M} (he : s.Enabled e) :
    ReadyConnected (s.step cls e).1 := by
  rcases step_cases cls he with ⟨id, completion, rfl⟩ | ⟨s', hstep, hother⟩
  · have hkeep := KeepsOthers.resume cls s id completion
    exact fun hready => hkeep.run.trans (h (hkeep.sessionReady.symm.trans hready))
  · rw [hstep]
    cases hother with
    | connected hrun => exact fun _ => rfl
    | resumeRun hrun hok => exact fun hready => absurd (h hready) (he.1 true)
    | _ => exact h

theorem noSecondLoop_iff {e : SessionEvent M} : NoSecondLoop s e ↔ startWriteStarts s e = 0 := by
  unfold NoSecondLoop
  cases e with
  | resume id completion =>
    show _ ↔ becomesLoop (s.coroutines id) s.sessionReady = 0
    constructor
    · intro h
      unfold becomesLoop
      split
      · rename_i hid hready
        exact absurd (hready.symm.trans (h id completion rfl hid)) nofun
      · rfl
    · rintro h j completion' heq hj
      injection heq with hid
      subst hid
      rw [hj] at h
      cases hready : s.sessionReady with
      | false => rfl
      | true =>
        rw [hready] at h
        exact absurd h Nat.one_ne_zero
  | asyncWrite message => exact iff_of_true nofun rfl
  | runHandler => exact iff_of_true nofun rfl
  | resumeRun ok => exact iff_of_true nofun rfl
  | stopAsync => exact iff_of_true nofun rfl
  | runStop => exact iff_of_true nofun rfl

end Step

/-! ### Runs -/

section Runs

variable {cls : SessionClass} {s : Session M} {es : List (SessionEvent M)}

/-- The loops that were started run, or have set the promise. -/
theorem doneCount_add_writeLoops (hdone : cls.doneOnEmpty = true) (hfresh : Fresh s)
    (h : (sessionMachine M cls).Legal s es) :
    doneCount ((sessionMachine M cls).trace s es) +
        writeLoops ((sessionMachine M cls).final s es) =
      writeLoops s + (sessionMachine M cls).sumSteps loopStarts s es := by
  induction es generalizing s with
  | nil => exact Nat.zero_add _
  | cons e es ih =>
    have hstep := doneCount_step hdone hfresh h.1
    have hrest : doneCount ((sessionMachine M cls).trace (s.step cls e).1 es) +
        writeLoops ((sessionMachine M cls).final (s.step cls e).1 es) =
      writeLoops (s.step cls e).1 +
        (sessionMachine M cls).sumSteps loopStarts (s.step cls e).1 es := ih (hfresh.step h.1) h.2
    rw [Machine.trace_cons, doneCount_append, Machine.final_cons, Machine.sumSteps_cons]
    show doneCount (s.step cls e).2 + doneCount ((sessionMachine M cls).trace (s.step cls e).1 es) +
        writeLoops ((sessionMachine M cls).final (s.step cls e).1 es) =
      writeLoops s + (loopStarts s e +
        (sessionMachine M cls).sumSteps loopStarts (s.step cls e).1 es)
    omega

/-- The loops that were started are that of `Run` and those of `StartWrite`. -/
theorem sumSteps_loopStarts (h : (sessionMachine M cls).Legal {} es) :
    (sessionMachine M cls).sumSteps loopStarts {} es =
      connected ((sessionMachine M cls).final {} es) +
        (sessionMachine M cls).sumSteps startWriteStarts {} es := by
  have hconnected := (sessionMachine M cls).potential (φ := connected) (f := runStarts)
    (fun _ _ he => connected_step he) h
  have hnew : connected ({} : Session M) = 0 := rfl
  rw [hnew, Nat.zero_add] at hconnected
  rw [hconnected]
  exact Machine.sumSteps_add _ runStarts startWriteStarts {} es

theorem ReadyConnected.final (h : (sessionMachine M cls).Legal {} es) :
    ReadyConnected ((sessionMachine M cls).final {} es) :=
  (sessionMachine M cls).invariant (P := fun s _ => ReadyConnected s)
    (fun _ _ _ he hready => hready.step he)
    (fun hready => absurd hready Bool.false_ne_true) h

/-! ### How the loops end -/

/-- How often a loop still has to go on, if its write fails and no message waits. -/
def stepsLeft : Option (Coroutine M) → ℕ
  | some .writeLoop => 3
  | some (.timer _) => 2
  | some (.asyncWrite _) => 1
  | none | some .startWrite | some .readLoop | some .asyncRead => 0

variable (cls) in
theorem stepsLeft_resume {id : ℕ} (hid : loopsAt (s.coroutines id) ≠ 0) :
    stepsLeft ((s.resume cls id .error).1.coroutines id) < stepsLeft (s.coroutines id) := by
  unfold Session.resume
  cases hc : s.coroutines id with
  | none => exact absurd (congrArg loopsAt hc) hid
  | some c =>
    cases c with
    | startWrite => exact absurd (congrArg loopsAt hc) hid
    | readLoop => exact absurd (congrArg loopsAt hc) hid
    | asyncRead => exact absurd (congrArg loopsAt hc) hid
    | writeLoop =>
      show stepsLeft (((s.assignSlot id).writeHead cls id).1.coroutines id) < 3
      unfold Session.writeHead
      split
      · rw [finish_self]
        exact Nat.zero_lt_succ 2
      · split
        · rw [finish_self]
          exact Nat.zero_lt_succ 2
        · rw [suspend_self]
          exact Nat.lt_succ_self 2
    | timer message =>
      show stepsLeft ((s.suspend id _).coroutines id) < 2
      rw [suspend_self]
      exact Nat.lt_succ_self 1
    | asyncWrite message =>
      show stepsLeft ((s.finish id).coroutines id) < 1
      rw [finish_self]
      exact Nat.zero_lt_one

/-- The loops that run can be brought to their ends. -/
theorem exists_writeLoops_eq_zero (cls : SessionClass) (s : Session M) (hfresh : Fresh s) :
    ∃ post, (sessionMachine M cls).Legal s post ∧
      (sessionMachine M cls).AllSteps NoSecondLoop s post ∧
      writeLoops ((sessionMachine M cls).final s post) = 0 := by
  by_cases hloops : writeLoops s = 0
  · exact ⟨[], trivial, trivial, hloops⟩
  · unfold writeLoops sumCoroutines at hloops
    obtain ⟨id, hmem, hid⟩ := exists_ne_zero_of_sum_ne_zero hloops
    have he : s.coroutines id ≠ none := fun hnone => hid (congrArg loopsAt hnone)
    have hfewer := sumCoroutines_keepsOthers stepsLeft (.resume cls s id .error) (mem_range.mp hmem)
    have hless := stepsLeft_resume cls hid
    obtain ⟨post, hlegal, hsecond, hzero⟩ := exists_writeLoops_eq_zero cls
      (s.resume cls id .error).1 (hfresh.step (e := .resume id .error) he)
    refine ⟨.resume id .error :: post, ⟨he, hlegal⟩, ⟨?_, hsecond⟩, hzero⟩
    rintro j completion heq hj
    injection heq with hjid
    subst hjid
    exact absurd (congrArg loopsAt hj) hid
termination_by sumCoroutines stepsLeft s
decreasing_by omega

/-! ### The promise -/

/-- The promise is set once at most, in the run and in all that may follow without one more loop. -/
def DoneOnce (cls : SessionClass) (es : List (SessionEvent M)) : Prop :=
  ∀ post, (sessionMachine M cls).Legal ((sessionMachine M cls).final {} es) post →
    (sessionMachine M cls).AllSteps NoSecondLoop ((sessionMachine M cls).final {} es) post →
    doneCount ((sessionMachine M cls).trace {} (es ++ post)) ≤ 1

theorem allSteps_noSecondLoop_iff (s : Session M) (es : List (SessionEvent M)) :
    (sessionMachine M cls).AllSteps NoSecondLoop s es ↔
      (sessionMachine M cls).sumSteps startWriteStarts s es = 0 := by
  rw [Machine.sumSteps_eq_zero_iff, Machine.allSteps_iff, Machine.allSteps_iff]
  simp only [noSecondLoop_iff]

theorem doneCount_le_one (hdone : cls.doneOnEmpty = true)
    (h : (sessionMachine M cls).Legal {} es)
    (hsecond : (sessionMachine M cls).AllSteps NoSecondLoop {} es) :
    doneCount ((sessionMachine M cls).trace {} es) ≤ 1 := by
  have hloops := doneCount_add_writeLoops hdone (fun _ _ => rfl) h
  rw [allSteps_noSecondLoop_iff] at hsecond
  rw [sumSteps_loopStarts h, hsecond] at hloops
  have hnew : writeLoops ({} : Session M) = 0 := rfl
  have hrun := connected_le_one ((sessionMachine M cls).final {} es)
  omega

/-- A second loop sets the promise a second time. -/
theorem exists_two_le_doneCount (hdone : cls.doneOnEmpty = true)
    (h : (sessionMachine M cls).Legal {} es)
    (hsecond : ¬ (sessionMachine M cls).AllSteps NoSecondLoop {} es) :
    ∃ post, (sessionMachine M cls).Legal ((sessionMachine M cls).final {} es) post ∧
      (sessionMachine M cls).AllSteps NoSecondLoop ((sessionMachine M cls).final {} es) post ∧
      2 ≤ doneCount ((sessionMachine M cls).trace {} (es ++ post)) := by
  have hfresh := Fresh.final h
  obtain ⟨post, hlegal, hpost, hzero⟩ := exists_writeLoops_eq_zero cls _ hfresh
  refine ⟨post, hlegal, hpost, ?_⟩
  have hconnected : connected ((sessionMachine M cls).final {} es) = 1 := by
    obtain ⟨pre, e, rest, rfl, -, hbad⟩ := Machine.exists_first_bad _ hsecond
    rw [Machine.Legal, Machine.allSteps_append] at h
    -- the session is ready at the bad step
    have hready : ((sessionMachine M cls).final {} pre).sessionReady = true := by
      by_contra hnot
      exact hbad fun _ _ _ _ => Bool.eq_false_of_not_eq_true hnot
    have hpre : connected ((sessionMachine M cls).final {} pre) = 1 :=
      if_pos (ReadyConnected.final h.1 hready)
    have hrest := (sessionMachine M cls).potential (φ := connected) (f := runStarts)
      (fun _ _ he => connected_step he) h.2
    rw [Machine.final_append]
    have hone := connected_le_one ((sessionMachine M cls).final
      ((sessionMachine M cls).final {} pre) (e :: rest))
    omega
  have hstarted := doneCount_add_writeLoops hdone (fun _ _ => rfl) h
  rw [sumSteps_loopStarts h, hconnected] at hstarted
  rw [allSteps_noSecondLoop_iff] at hsecond
  have hended := doneCount_add_writeLoops hdone hfresh hlegal
  rw [Machine.trace_append, doneCount_append]
  omega

/-- **The write promise** is set once exactly when no `StartWrite` goes on after the session has
become ready. -/
theorem doneOnce_iff (h : (sessionMachine M WebSocketSessionRW).Legal {} es) :
    DoneOnce WebSocketSessionRW es ↔
      (sessionMachine M WebSocketSessionRW).AllSteps NoSecondLoop {} es := by
  constructor
  · intro honce
    by_contra hsecond
    obtain ⟨post, hlegal, hpost, htwo⟩ := exists_two_le_doneCount rfl h hsecond
    exact absurd (htwo.trans (honce post hlegal hpost)) (Nat.not_succ_le_self 1)
  · intro hsecond post hlegal hpost
    exact doneCount_le_one rfl ((Machine.allSteps_append ..).mpr ⟨h, hlegal⟩)
      ((Machine.allSteps_append ..).mpr ⟨hsecond, hpost⟩)

end Runs

theorem doneOnce_iff_writeEarly : DoneOnce WebSocketSessionRW writeEarly :=
  (doneOnce_iff (by decide)).mpr ((allSteps_noSecondLoop_iff {} writeEarly).mpr (by decide))

/-- The `WriteLoop` of `Run` finds the queue empty; a message is written afterwards. -/
def writeAfterRun : List (SessionEvent String) :=
  connect ++ [.resume 0 (.success []), .resume 1 (.success []), .asyncWrite "ping", .runHandler,
    .resume 2 (.success []), .resume 2 (.success []), .resume 2 (.success [])]

/-- Both loops set the promise. -/
theorem writeAfterRun_twice : (sessionMachine String WebSocketSessionRW).Legal {} writeAfterRun ∧
    ¬ DoneOnce WebSocketSessionRW writeAfterRun := by
  refine ⟨by decide, fun h => ?_⟩
  have hcount : doneCount ((sessionMachine String WebSocketSessionRW).trace {}
      (writeAfterRun ++ [])) = 2 := by decide
  have hone := h [] trivial trivial
  omega

end CryptobotAlgo.Aoe.WebSocket
