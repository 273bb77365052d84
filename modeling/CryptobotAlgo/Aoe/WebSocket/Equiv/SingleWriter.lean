import CryptobotAlgo.Aoe.WebSocket.Equiv.Session
import Mathlib.Data.List.Nodup

/-!
# Who writes to the stream

A `WriteLoop` takes a message, waits for its timer, and starts `async_write`, and every `AsyncWrite`
starts a `WriteLoop` of its own.  Nothing keeps a loop from writing while another one does, or ahead
of one that took its message earlier.

`WriterSession` keeps, beside the session, the loops that wait at their timers, in the order in
which they took their messages.  As long as the timers end in this order, each when no write is
outstanding (`WritesInTurn`), the messages that were written, those at the timers, those in the
queue and those on the strand are together what was passed to `AsyncWrite` (`InTurn.calls`).
`singleWriter_iff` says that the timers decide it.
-/

namespace CryptobotAlgo.Aoe.WebSocket

variable {M : Type}

/-- The messages that `async_write` was started with. -/
def written (actions : List (SessionAction M)) : List M :=
  actions.filterMap fun
    | .asyncWrite message => some message
    | _ => none

theorem written_append (actions actions' : List (SessionAction M)) :
    written (actions ++ actions') = written actions ++ written actions' :=
  List.filterMap_append

/-- The messages passed to `AsyncWrite`. -/
def called (es : List (SessionEvent M)) : List M :=
  es.filterMap fun
    | .asyncWrite message => some message
    | _ => none

/-- A session, and the loops at their timers, the one that has waited longest first. -/
structure WriterSession (M : Type) where
  session : Session M := {}
  timers : List (ℕ × M) := []

/-- The coroutine `id` with its message, if it waits at its timer. -/
def atTimer (s : Session M) (id : ℕ) : List (ℕ × M) :=
  match s.coroutines id with
  | some (.timer message) => [(id, message)]
  | _ => []

/-- A coroutine that goes on leaves its timer; it may wait again, behind the others. -/
def WriterSession.step (cls : SessionClass) (w : WriterSession M) (e : SessionEvent M) :
    WriterSession M × List (SessionAction M) :=
  let next := w.session.step cls e
  let timers := match e with
    | .resume id _ => w.timers.filter (fun waiting => waiting.1 ≠ id) ++ atTimer next.1 id
    | _ => w.timers
  (⟨next.1, timers⟩, next.2)

def writerMachine (M : Type) (cls : SessionClass) :
    Machine (WriterSession M) (SessionEvent M) (SessionAction M) where
  enabled := fun w e => w.session.Enabled e
  step := WriterSession.step cls

/-- A timer ends when no write is outstanding, and after the timers that were started before it. -/
def WritesInTurn (w : WriterSession M) : SessionEvent M → Prop
  | .resume id _ => ∀ message, w.session.coroutines id = some (.timer message) →
      (∀ j outstanding, w.session.coroutines j ≠ some (.asyncWrite outstanding)) ∧
        w.timers.head? = some (id, message)
  | _ => True

/-! ### What a coroutine does with the messages -/

section Resume

variable {cls : SessionClass} {s : Session M} {id : ℕ}

variable (cls) in
theorem resume_of_timer {message : M} (h : s.coroutines id = some (.timer message))
    (completion : Completion) :
    s.resume cls id completion =
      (s.suspend id (.asyncWrite message), [.asyncWrite message]) := by
  unfold Session.resume
  rw [h]

theorem atTimer_of_timer {message : M} (h : s.coroutines id = some (.timer message)) :
    atTimer s id = [(id, message)] := by
  unfold atTimer
  rw [h]

theorem atTimer_of_ne (h : ∀ message, s.coroutines id ≠ some (.timer message)) :
    atTimer s id = [] := by
  unfold atTimer
  split
  · exact absurd ‹_› (h _)
  · rfl

/-- Nothing is written, and the coroutine `id` takes the next message to its timer, or takes none
and does not write. -/
structure TakesNext (s : Session M) (id : ℕ) (next : Session M × List (SessionAction M)) :
    Prop where
  written : written next.2 = []
  notWriting : ∀ message, next.1.coroutines id ≠ some (.asyncWrite message)
  messageQueue : s.messageQueue = (atTimer next.1 id).map Prod.snd ++ next.1.messageQueue

theorem TakesNext.finish (s : Session M) (id : ℕ) {actions : List (SessionAction M)}
    (hactions : WebSocket.written actions = []) : TakesNext s id (s.finish id, actions) where
  written := hactions
  notWriting := fun _ h => nomatch (finish_self s id).symm.trans h
  messageQueue := by
    rw [atTimer_of_ne fun _ h => nomatch (finish_self s id).symm.trans h]
    rfl

theorem TakesNext.writeHead (cls : SessionClass) (s : Session M) (id : ℕ) :
    TakesNext s id (s.writeHead cls id) := by
  unfold Session.writeHead
  split
  · exact .finish s id rfl
  · split
    · refine .finish s id ?_
      split
      · rfl
      · rfl
    · rename_i message rest hqueue
      refine ⟨rfl, fun _ h => ?_, ?_⟩
      · exact nomatch (suspend_self _ id (.timer message)).symm.trans h
      rw [hqueue, atTimer_of_timer (suspend_self _ id (.timer message))]
      rfl

theorem TakesNext.endRead (s : Session M) (id : ℕ) : TakesNext s id (s.endRead id) := by
  have hqueue : s.emit.messageQueue = s.messageQueue := by
    unfold Session.emit
    split
    · rfl
    · rfl
  have hfinish : TakesNext s.emit id (s.endRead id) := .finish s.emit id rfl
  exact ⟨rfl, hfinish.notWriting, hqueue.symm.trans hfinish.messageQueue⟩

theorem TakesNext.readHead (s : Session M) (id : ℕ) : TakesNext s id (s.readHead id) := by
  unfold Session.readHead
  split
  · exact .endRead s id
  · refine ⟨rfl, fun _ h => ?_, ?_⟩
    · exact nomatch (suspend_self s id .asyncRead).symm.trans h
    rw [atTimer_of_ne fun _ h => nomatch (suspend_self s id .asyncRead).symm.trans h]
    rfl

theorem TakesNext.of_assignSlot {next : Session M × List (SessionAction M)}
    (h : TakesNext (s.assignSlot id) id next) : TakesNext s id next :=
  ⟨h.written, h.notWriting, h.messageQueue⟩

variable (cls) in
/-- Only a timer that ends lets a loop write. -/
theorem TakesNext.resume (h : ∀ message, s.coroutines id ≠ some (.timer message))
    (completion : Completion) : TakesNext s id (s.resume cls id completion) := by
  unfold Session.resume
  cases hid : s.coroutines id with
  | none =>
    refine ⟨rfl, fun _ hnext => ?_, ?_⟩
    · exact nomatch hid.symm.trans hnext
    rw [atTimer_of_ne h]
    rfl
  | some c =>
    cases c with
    | startWrite =>
      dsimp only
      split
      · exact .finish s id rfl
      · exact .of_assignSlot (.writeHead cls (s.assignSlot id) id)
    | writeLoop => exact .of_assignSlot (.writeHead cls (s.assignSlot id) id)
    | timer message => exact absurd hid (h message)
    | asyncWrite message =>
      cases completion with
      | error => exact .finish s id rfl
      | success data => exact .writeHead cls s id
    | readLoop => exact .of_assignSlot (.readHead (s.assignSlot id) id)
    | asyncRead =>
      cases completion with
      | error => exact .endRead s id
      | success data =>
        have hread := TakesNext.readHead s id
        refine ⟨?_, hread.notWriting, hread.messageQueue⟩
        dsimp only
        rw [written_append, hread.written]
        split
        · rfl
        · rfl

end Resume

/-! ### What a step does with the messages -/

/-- The messages that wait, in the order in which they will be written. -/
def WriterSession.waiting (w : WriterSession M) : List M :=
  w.timers.map Prod.snd ++ w.session.messageQueue ++ w.session.strand

/-- The loops that are listed are those at their timers, each once. -/
structure TimersInv (w : WriterSession M) : Prop where
  fresh : Fresh w.session
  mem : ∀ id message, (id, message) ∈ w.timers ↔
    w.session.coroutines id = some (.timer message)
  nodup : (w.timers.map Prod.fst).Nodup

/-- At most one write is outstanding. -/
def OneWriter (s : Session M) : Prop :=
  ∀ i j message message', s.coroutines i = some (.asyncWrite message) →
    s.coroutines j = some (.asyncWrite message') → i = j

section Step

variable {cls : SessionClass} {w : WriterSession M}

/-- Where no coroutine goes on, no message is taken. -/
theorem OtherStep.messages {s s' : Session M} {e : SessionEvent M} (h : OtherStep cls s e s') :
    s'.messageQueue ++ s'.strand = s.messageQueue ++ s.strand ++ called [e] := by
  cases h with
  | asyncWrite message => exact (List.append_assoc ..).symm
  | runHandler hstrand =>
    rename_i message rest
    rw [hstrand]
    show s.messageQueue ++ [message] ++ rest = s.messageQueue ++ message :: rest ++ []
    simp
  | _ => exact (List.append_nil _).symm

theorem mem_atTimer {s : Session M} {id j : ℕ} {message : M} :
    (j, message) ∈ atTimer s id ↔ j = id ∧ s.coroutines id = some (.timer message) := by
  unfold atTimer
  split
  · rename_i waiting h
    rw [List.mem_singleton, Prod.mk.injEq, h, Option.some.injEq, Coroutine.timer.injEq]
    exact and_congr_right fun _ => eq_comm
  · rename_i h
    exact iff_of_false List.not_mem_nil fun hmem => h _ hmem.2

theorem step_resume (id : ℕ) (completion : Completion) :
    w.step cls (.resume id completion) =
      (⟨(w.session.resume cls id completion).1,
        (w.timers.filter fun waiting => waiting.1 ≠ id) ++
          atTimer (w.session.resume cls id completion).1 id⟩,
        (w.session.resume cls id completion).2) :=
  rfl

theorem step_of_otherStep {e : SessionEvent M} {s' : Session M}
    (hstep : w.session.step cls e = (s', [])) (h : OtherStep cls w.session e s') :
    w.step cls e = (⟨s', w.timers⟩, []) := by
  unfold WriterSession.step
  rw [hstep]
  cases h with
  | _ => rfl

theorem TimersInv.new : TimersInv ({} : WriterSession M) where
  fresh := fun _ _ => rfl
  mem := fun _ _ => iff_of_false List.not_mem_nil nofun
  nodup := List.nodup_nil

theorem TimersInv.resume (h : TimersInv w) {id : ℕ} (he : w.session.coroutines id ≠ none)
    (completion : Completion) : TimersInv (w.step cls (.resume id completion)).1 := by
  have hkeep := KeepsOthers.resume cls w.session id completion
  refine ⟨h.fresh.keepsOthers hkeep he, fun j message => ?_, ?_⟩
  · show (j, message) ∈ w.timers.filter _ ++ atTimer (w.session.resume cls id completion).1 id ↔ _
    rw [List.mem_append, mem_atTimer, List.mem_filter, h.mem]
    by_cases hj : j = id
    · subst hj
      refine ⟨?_, fun hnext => .inr ⟨rfl, hnext⟩⟩
      rintro (⟨-, hne⟩ | ⟨-, hnext⟩)
      · exact absurd rfl (of_decide_eq_true hne)
      · exact hnext
    · have hkept : (w.session.resume cls id completion).1.coroutines j = w.session.coroutines j :=
        hkeep.coroutines j hj
      rw [← hkept]
      refine ⟨?_, fun hold => .inl ⟨hold, decide_eq_true hj⟩⟩
      rintro (⟨hold, -⟩ | ⟨heq, -⟩)
      · exact hold
      · exact absurd heq hj
  · show ((w.timers.filter _ ++ atTimer _ id).map Prod.fst).Nodup
    rw [List.map_append, List.nodup_append]
    refine ⟨h.nodup.sublist (List.filter_sublist.map _), ?_, ?_⟩
    · unfold atTimer
      split
      · exact List.nodup_singleton _
      · exact List.nodup_nil
    · intro j hold j' hnew
      obtain ⟨waiting, hmem, rfl⟩ := List.mem_map.mp hold
      obtain ⟨⟨i, message⟩, hmem', rfl⟩ := List.mem_map.mp hnew
      have hi : i = id := (mem_atTimer.mp hmem').1
      show waiting.1 ≠ i
      rw [hi]
      exact of_decide_eq_true (List.mem_filter.mp hmem).2

/-- A loop at its timer, or at its write, is there after another step exactly when it was before. -/
theorem OtherStep.coroutines_iff {s s' : Session M} {e : SessionEvent M}
    (h : OtherStep cls s e s') (hfresh : Fresh s) {id : ℕ} {c : Coroutine M}
    (hc : ¬ c.Unstarted) : s'.coroutines id = some c ↔ s.coroutines id = some c := by
  have hspawn := h.spawnsOnly hfresh
  refine ⟨fun hid => ?_, hspawn.old id c⟩
  exact (hspawn.new id c hid).resolve_right fun hnew => hc hnew.2

theorem TimersInv.step (h : TimersInv w) {e : SessionEvent M} (he : w.session.Enabled e) :
    TimersInv (w.step cls e).1 := by
  rcases step_cases cls he with ⟨id, completion, rfl⟩ | ⟨s', hstep, hother⟩
  · exact h.resume he completion
  · rw [step_of_otherStep hstep hother]
    refine ⟨hother.fresh h.fresh, fun j message => ?_, h.nodup⟩
    have hkept : s'.coroutines j = some (.timer message) ↔
        w.session.coroutines j = some (.timer message) := hother.coroutines_iff h.fresh not_false
    exact (h.mem j message).trans hkept.symm

/-- At most one write is outstanding, and the messages were written in the order of the calls. -/
structure InTurn (w : WriterSession M) (sent calls : List M) : Prop where
  oneWriter : OneWriter w.session
  calls : calls = sent ++ w.waiting

theorem InTurn.new : InTurn ({} : WriterSession M) [] [] where
  oneWriter := nofun
  calls := rfl

/-- The timer that was started first ends while nobody writes. -/
theorem InTurn.resume_timer (hinv : TimersInv w) {sent calls : List M} (h : InTurn w sent calls)
    {id : ℕ} {message : M} (hid : w.session.coroutines id = some (.timer message))
    (completion : Completion) (hturn : WritesInTurn w (.resume id completion)) :
    InTurn (w.step cls (.resume id completion)).1
      (sent ++ written (w.step cls (.resume id completion)).2) calls := by
  obtain ⟨hnobody, hhead⟩ := hturn message hid
  obtain ⟨rest, htimers⟩ := List.head?_eq_some_iff.mp hhead
  have hresume := resume_of_timer cls hid completion
  have hothers : ∀ waiting ∈ rest, waiting.1 ≠ id := by
    intro waiting hmem heq
    have hnodup := hinv.nodup
    rw [htimers, List.map_cons, List.nodup_cons] at hnodup
    exact hnodup.1 (List.mem_map.mpr ⟨waiting, hmem, heq⟩)
  have hnone : atTimer (w.session.suspend id (.asyncWrite message)) id = [] :=
    atTimer_of_ne fun _ hnext => nomatch (suspend_self _ id (.asyncWrite message)).symm.trans hnext
  have hrest : (w.timers.filter fun waiting => waiting.1 ≠ id) = rest := by
    rw [htimers, List.filter_cons_of_neg (by simp), List.filter_eq_self]
    exact fun waiting hmem => decide_eq_true (hothers waiting hmem)
  have hnext : w.step cls (.resume id completion) =
      (⟨w.session.suspend id (.asyncWrite message), rest⟩, [.asyncWrite message]) := by
    rw [step_resume, hresume, hrest, hnone, List.append_nil]
  rw [hnext]
  refine ⟨fun i j m m' hi hj => ?_, ?_⟩
  · have honly : ∀ k, ∀ m, (w.session.suspend id (.asyncWrite message)).coroutines k =
        some (.asyncWrite m) → k = id := by
      intro k m hk
      by_contra hne
      exact hnobody k m ((Function.update_of_ne hne _ _).symm.trans hk)
    rw [honly i m hi, honly j m' hj]
  · rw [h.calls, WriterSession.waiting, htimers, List.append_assoc sent]
    rfl

/-- A coroutine goes on that is not at its timer. -/
theorem InTurn.resume_of_ne (hinv : TimersInv w) {sent calls : List M} (h : InTurn w sent calls)
    {id : ℕ} (hid : ∀ message, w.session.coroutines id ≠ some (.timer message))
    (completion : Completion) :
    InTurn (w.step cls (.resume id completion)).1
      (sent ++ written (w.step cls (.resume id completion)).2) calls := by
  have hkeep := KeepsOthers.resume cls w.session id completion
  have htakes := TakesNext.resume cls hid completion
  have htimers : (w.step cls (.resume id completion)).1.timers =
      w.timers ++ atTimer (w.session.resume cls id completion).1 id := by
    refine congrArg (· ++ _) (List.filter_eq_self.mpr ?_)
    rintro ⟨j, message⟩ hmem
    refine decide_eq_true fun heq => hid message ?_
    exact heq ▸ (hinv.mem j message).mp hmem
  refine ⟨fun i j m m' hi hj => ?_, ?_⟩
  · have hold : ∀ k m, (w.session.resume cls id completion).1.coroutines k =
        some (.asyncWrite m) → w.session.coroutines k = some (.asyncWrite m) := by
      intro k m hk
      by_cases hne : k = id
      · exact absurd (hne ▸ hk) (htakes.notWriting m)
      · exact (hkeep.coroutines k hne).symm.trans hk
    exact h.oneWriter i j m m' (hold i m hi) (hold j m' hj)
  · have hwritten : written (w.step cls (.resume id completion)).2 = [] := htakes.written
    have hstrand : (w.step cls (.resume id completion)).1.session.strand = w.session.strand :=
      hkeep.strand
    have hqueue : w.session.messageQueue = _ ++
      (w.step cls (.resume id completion)).1.session.messageQueue := htakes.messageQueue
    rw [h.calls, hwritten, List.append_nil, WriterSession.waiting, WriterSession.waiting, htimers,
      hstrand, hqueue, List.map_append]
    simp only [List.append_assoc]

theorem InTurn.step (hinv : TimersInv w) {sent calls : List M} (h : InTurn w sent calls)
    {e : SessionEvent M} (he : w.session.Enabled e) (hturn : WritesInTurn w e) :
    InTurn (w.step cls e).1 (sent ++ written (w.step cls e).2) (calls ++ called [e]) := by
  rcases step_cases cls he with ⟨id, completion, rfl⟩ | ⟨s', hstep, hother⟩
  · have hcalls : calls ++ called [SessionEvent.resume id completion] = calls :=
      List.append_nil calls
    rw [hcalls]
    by_cases hid : ∃ message, w.session.coroutines id = some (.timer message)
    · obtain ⟨message, hid⟩ := hid
      exact h.resume_timer hinv hid completion hturn
    · exact h.resume_of_ne hinv (fun message hm => hid ⟨message, hm⟩) completion
  · have hnil : written ([] : List (SessionAction M)) = [] := rfl
    rw [step_of_otherStep hstep hother, hnil, List.append_nil]
    refine ⟨fun i j m m' hi hj => ?_, ?_⟩
    · have hold : ∀ k m, s'.coroutines k = some (.asyncWrite m) ↔
          w.session.coroutines k = some (.asyncWrite m) :=
        fun _ _ => hother.coroutines_iff hinv.fresh not_false
      exact h.oneWriter i j m m' ((hold i m).mp hi) ((hold j m').mp hj)
    · rw [h.calls, WriterSession.waiting, WriterSession.waiting,
        List.append_assoc _ s'.messageQueue, hother.messages]
      simp only [List.append_assoc]

end Step

/-! ### Runs -/

section Runs

variable {cls : SessionClass} {es : List (SessionEvent M)}

variable (cls) in
/-- The list of the loops at their timers changes nothing. -/
theorem final_writerMachine (w : WriterSession M) (es : List (SessionEvent M)) :
    ((writerMachine M cls).final w es).session = (sessionMachine M cls).final w.session es ∧
      (writerMachine M cls).trace w es = (sessionMachine M cls).trace w.session es := by
  induction es generalizing w with
  | nil => exact ⟨rfl, rfl⟩
  | cons e es ih =>
    obtain ⟨hfinal, htrace⟩ := ih (w.step cls e).1
    exact ⟨hfinal, congrArg (_ ++ ·) htrace⟩

theorem legal_writerMachine (w : WriterSession M) (es : List (SessionEvent M)) :
    (writerMachine M cls).Legal w es ↔ (sessionMachine M cls).Legal w.session es := by
  induction es generalizing w with
  | nil => exact Iff.rfl
  | cons e es ih => exact and_congr_right fun _ => ih (w.step cls e).1

theorem called_append (es fs : List (SessionEvent M)) :
    called (es ++ fs) = called es ++ called fs :=
  List.filterMap_append

theorem TimersInv.final (h : (writerMachine M cls).Legal {} es) :
    TimersInv ((writerMachine M cls).final {} es) :=
  (writerMachine M cls).invariant (P := fun w _ => TimersInv w)
    (fun _ _ _ he hinv => hinv.step he) .new h

/-- What is written in turn is written in the order of the calls. -/
theorem InTurn.final (h : (writerMachine M cls).Legal {} es)
    (hturn : (writerMachine M cls).AllSteps WritesInTurn {} es) :
    InTurn ((writerMachine M cls).final {} es) (written ((writerMachine M cls).trace {} es))
      (called es) := by
  refine ((writerMachine M cls).invariant_events
    (P := fun es w actions => TimersInv w ∧ InTurn w (written actions) (called es)) ?_
    ⟨.new, .new⟩ (h.and _ hturn)).2
  rintro pre w actions e ⟨he, hturn⟩ ⟨hinv, hpre⟩
  rw [written_append, called_append]
  exact ⟨hinv.step he, hpre.step hinv he hturn⟩

/-- At most one write is outstanding, and the messages are written in the order of the calls, each
once; when none waits, all have been written. -/
structure SingleWriter (cls : SessionClass) (es : List (SessionEvent M)) : Prop where
  oneWriter : OneWriter ((sessionMachine M cls).final {} es)
  inOrder : written ((sessionMachine M cls).trace {} es) <+: called es
  all : ((sessionMachine M cls).final {} es).strand = [] →
    ((sessionMachine M cls).final {} es).messageQueue = [] →
    (∀ id message, ((sessionMachine M cls).final {} es).coroutines id ≠ some (.timer message)) →
    written ((sessionMachine M cls).trace {} es) = called es

theorem InTurn.singleWriter (h : (writerMachine M cls).Legal {} es)
    (hturn : InTurn ((writerMachine M cls).final {} es)
      (written ((writerMachine M cls).trace {} es)) (called es)) : SingleWriter cls es := by
  have hinv := TimersInv.final h
  obtain ⟨hfinal, htrace⟩ := final_writerMachine cls ({} : WriterSession M) es
  rw [htrace] at hturn
  refine ⟨hfinal ▸ hturn.oneWriter, ⟨_, hturn.calls.symm⟩, fun hstrand hqueue htimers => ?_⟩
  rw [← hfinal] at hstrand hqueue htimers
  have hnone : ((writerMachine M cls).final {} es).timers = [] := by
    rw [List.eq_nil_iff_forall_not_mem]
    rintro ⟨id, message⟩ hmem
    exact htimers id message ((hinv.mem id message).mp hmem)
  rw [hturn.calls, WriterSession.waiting, hnone, hqueue, hstrand]
  exact (List.append_nil _).symm

/-- A timer that ends out of turn lets two loops write, or the later message go first. -/
theorem writesInTurn_of_singleWriter {w : WriterSession M} {sent calls : List M}
    (hinv : TimersInv w) (h : InTurn w sent calls) (hnodup : calls.Nodup) {e : SessionEvent M}
    (hone : OneWriter (w.step cls e).1.session)
    (horder : sent ++ written (w.step cls e).2 <+: calls ++ called [e]) : WritesInTurn w e := by
  cases e with
  | resume id completion =>
    intro message hid
    have hresume := resume_of_timer cls hid completion
    rw [step_resume, hresume] at hone horder
    constructor
    · intro j outstanding hj
      have hne : j ≠ id := by
        rintro rfl
        exact nomatch hid.symm.trans hj
      have hold : (w.session.suspend id (.asyncWrite message)).coroutines j =
          some (.asyncWrite outstanding) := (Function.update_of_ne hne _ _).trans hj
      exact hne (hone j id _ _ hold (suspend_self ..))
    · have hmem : (id, message) ∈ w.timers := (hinv.mem id message).mpr hid
      cases htimers : w.timers with
      | nil => exact absurd (htimers ▸ hmem) List.not_mem_nil
      | cons first rest =>
        rw [htimers, List.mem_cons] at hmem
        rcases hmem with hfirst | hlater
        · rw [hfirst]
          rfl
        · -- the message of the first loop comes next in the calls
          have hcalls := h.calls
          rw [WriterSession.waiting, htimers, List.map_cons] at hcalls
          rw [hcalls, List.append_assoc sent, List.prefix_append_right_inj] at horder
          obtain rfl : message = first.2 := (List.cons_prefix_cons.mp horder).1
          rw [hcalls, List.cons_append, List.cons_append, List.nodup_append] at hnodup
          have hfresh := (List.nodup_cons.mp hnodup.2.1).1
          refine absurd ?_ hfresh
          rw [List.mem_append, List.mem_append]
          exact .inl (.inl (List.mem_map.mpr ⟨_, hlater, rfl⟩))
  | asyncWrite message => trivial
  | runHandler => trivial
  | resumeRun ok => trivial
  | stopAsync => trivial
  | runStop => trivial

end Runs

/-- After every part of the run. -/
def AlwaysSingleWriter (cls : SessionClass) (es : List (SessionEvent M)) : Prop :=
  ∀ pre post, es = pre ++ post → SingleWriter cls pre

theorem alwaysSingleWriter_of_writesInTurn {cls : SessionClass} {es : List (SessionEvent M)}
    (h : (writerMachine M cls).Legal {} es)
    (hturn : (writerMachine M cls).AllSteps WritesInTurn {} es) : AlwaysSingleWriter cls es := by
  rintro pre post rfl
  have hpre : (writerMachine M cls).Legal {} pre := ((Machine.allSteps_append ..).mp h).1
  exact InTurn.singleWriter hpre (.final hpre ((Machine.allSteps_append ..).mp hturn).1)

/-- The first timer that ends out of turn is seen on the stream, where no two messages are equal. -/
theorem allSteps_writesInTurn {cls : SessionClass} {es : List (SessionEvent M)}
    (h : (writerMachine M cls).Legal {} es) (hnodup : (called es).Nodup)
    (hwriter : AlwaysSingleWriter cls es) :
    (writerMachine M cls).AllSteps WritesInTurn {} es := by
  by_contra hbad
  obtain ⟨pre, e, post, rfl, hpre, he⟩ := Machine.exists_first_bad _ hbad
  have hlegal : (writerMachine M cls).Legal {} pre := ((Machine.allSteps_append ..).mp h).1
  have hturn := InTurn.final hlegal hpre
  have hdistinct : (called pre).Nodup := by
    rw [called_append, List.nodup_append] at hnodup
    exact hnodup.1
  have hnext := hwriter (pre ++ [e]) post (by rw [List.append_cons])
  obtain ⟨hfinal, htrace⟩ := final_writerMachine cls ({} : WriterSession M) (pre ++ [e])
  have hone := hnext.oneWriter
  have horder := hnext.inOrder
  rw [← hfinal, Machine.final_concat] at hone
  rw [← htrace, Machine.trace_concat, written_append, called_append] at horder
  exact he (writesInTurn_of_singleWriter (.final hlegal) hturn hdistinct hone horder)

/-- **Single writer**: the timers of the loops have to end in the order in which they were started,
each when no write is outstanding. -/
theorem singleWriter_iff {es : List (SessionEvent M)}
    (h : (sessionMachine M WebSocketSessionRW).Legal {} es) :
    ((writerMachine M WebSocketSessionRW).AllSteps WritesInTurn {} es →
        AlwaysSingleWriter WebSocketSessionRW es) ∧
      ((called es).Nodup → AlwaysSingleWriter WebSocketSessionRW es →
        (writerMachine M WebSocketSessionRW).AllSteps WritesInTurn {} es) := by
  have hlegal : (writerMachine M WebSocketSessionRW).Legal {} es :=
    (legal_writerMachine {} es).mpr h
  exact ⟨alwaysSingleWriter_of_writesInTurn hlegal, allSteps_writesInTurn hlegal⟩

/-- The first timer may end if no write is outstanding. -/
theorem writesInTurn_of_head {w : WriterSession M} {id : ℕ} {message : M} (completion : Completion)
    (hid : w.session.coroutines id = some (.timer message))
    (hhead : w.timers.head? = some (id, message))
    (hnone : ∀ j outstanding, w.session.coroutines j ≠ some (.asyncWrite outstanding)) :
    WritesInTurn w (.resume id completion) := by
  intro message' hid'
  have hsame := Option.some.inj (hid.symm.trans hid')
  injection hsame with hmessage
  exact ⟨hnone, hmessage ▸ hhead⟩

/-- Three messages and two loops: the one of `Run` takes the first, the one of the first call the
second, and the loop of `Run` the third once it has written the first. -/
def writeThree : List (SessionEvent String) :=
  connect ++ [.asyncWrite "subscribe", .runHandler, .asyncWrite "ping", .runHandler,
    .asyncWrite "unsubscribe", .runHandler, .resume 0 (.success []), .resume 2 (.success []),
    .resume 0 (.success []), .resume 0 (.success []), .resume 2 (.success []),
    .resume 2 (.success []), .resume 0 (.success []), .resume 0 (.success [])]

theorem singleWriter_iff_writeThree : AlwaysSingleWriter WebSocketSessionRW writeThree ∧
    (writerMachine String WebSocketSessionRW).AllSteps WritesInTurn {} writeThree := by
  have hiff := @singleWriter_iff _ writeThree (by decide)
  have hwriter : AlwaysSingleWriter WebSocketSessionRW writeThree := by
    refine hiff.1 ⟨trivial, trivial, trivial, trivial, trivial, trivial, trivial, trivial, trivial,
      trivial, trivial, nofun, nofun, ?_, nofun, ?_, nofun, ?_, nofun, trivial⟩
    -- the timers that end are those of the first, the second and the third message
    · refine writesInTurn_of_head _ rfl rfl fun j outstanding => ?_
      rcases j with _ | _ | _ | _ | _ | j <;> exact nofun
    · refine writesInTurn_of_head _ rfl rfl fun j outstanding => ?_
      rcases j with _ | _ | _ | _ | _ | j <;> exact nofun
    · refine writesInTurn_of_head _ rfl rfl fun j outstanding => ?_
      rcases j with _ | _ | _ | _ | _ | j <;> exact nofun
  exact ⟨hwriter, hiff.2 (by decide) hwriter⟩

/-- A message is queued before the connection is made; while the `WriteLoop` of `Run` waits with it,
`AsyncWrite` starts a second loop, whose timer ends while the first one writes. -/
def writeTwo : List (SessionEvent String) :=
  [.asyncWrite "subscribe", .runHandler, .resume 0 (.success [])] ++ connect ++
    [.resume 1 (.success []), .resume 2 (.success []), .asyncWrite "ping", .runHandler,
      .resume 3 (.success []), .resume 1 (.success []), .resume 3 (.success [])]

/-- Both writes are outstanding. -/
theorem writeTwo_overlaps : (sessionMachine String WebSocketSessionRW).Legal {} writeTwo ∧
    ¬ AlwaysSingleWriter WebSocketSessionRW writeTwo := by
  refine ⟨by decide, fun h => ?_⟩
  have hone := (h writeTwo [] rfl).oneWriter
  exact absurd (hone 1 3 "subscribe" "ping" rfl rfl) (by decide)

end CryptobotAlgo.Aoe.WebSocket
