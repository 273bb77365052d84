import CryptobotAlgo.Aoe.Binance.Equiv.SnapshotRequest
import CryptobotAlgo.Aoe.Equiv.TradingPairNames
import CryptobotAlgo.Machine.Reach

/-!
# Requests that get lost

Nobody looks after a request.  While the flag is raised the synchronisation does not make another
one, so that a request that gets lost, on its way to the exchange or back, is the last one: the
synchronisation buffers diffs from then on (`Lost.run`).  `canRecover_iff` says that nothing but
this keeps it from going on.

The requests of the spot class all get lost, since it does not start their sessions.
-/

namespace CryptobotAlgo.Aoe.Binance

open Aos Feed OrderBookSync

variable {K Msg Diff : Type} [OrderBookDiffEventInterface Diff]
  {checkPacketLost : UInt64 → Diff → Bool} {requestNewSnapshot : TradingPair → RestSession}
  {iterate : Msg → Option Json} {numbers : NumberParsers K}

/-! ### What can still become a snapshot -/

/-- The message is a snapshot. -/
def parses (iterate : Msg → Option Json) (numbers : NumberParsers K) (msg : Msg) : Bool :=
  ((iterate msg).bind (SnapshotEventParser.parseAndCreate numbers)).isSome

/-- What can still become a snapshot: requests that will be sent, sessions that may answer, and
messages that are snapshots. -/
def live (requestNewSnapshot : TradingPair → RestSession) (iterate : Msg → Option Json)
    (numbers : NumberParsers K) (s : SnapshotLoop K Msg Diff) : ℕ :=
  credit (fun pair => (requestNewSnapshot pair).mayAnswer.toNat)
    (fun msg => (parses iterate numbers msg).toNat) s

theorem weighs_live (requestNewSnapshot : TradingPair → RestSession) (iterate : Msg → Option Json)
    (numbers : NumberParsers K) :
    Weighs requestNewSnapshot iterate numbers
      (fun pair => (requestNewSnapshot pair).mayAnswer.toNat)
      fun msg => (parses iterate numbers msg).toNat where
  request _ := Nat.le_refl _
  request_le_one _ := Bool.toNat_le _
  message_le_one _ := Bool.toNat_le _
  message pair msg := by
    show ((iterate msg).bind fun doc =>
      (SnapshotEventParser.parseAndCreate numbers doc).map _).toList.length ≤ _
    unfold parses
    cases iterate msg with
    | none => exact Nat.zero_le _
    | some doc =>
      rw [Option.bind_some, Option.bind_some]
      cases SnapshotEventParser.parseAndCreate numbers doc with
      | none => exact Nat.zero_le _
      | some event => exact Nat.le_refl 1

/-- The state is one that a run reaches. -/
def Reached (checkPacketLost : UInt64 → Diff → Bool) (s : SnapshotLoop K Msg Diff) : Prop :=
  ∃ es out handled, LoopRun checkPacketLost es s out handled

/-- The flag is raised, and no snapshot can come. -/
structure Lost (checkPacketLost : UInt64 → Diff → Bool)
    (requestNewSnapshot : TradingPair → RestSession) (iterate : Msg → Option Json)
    (numbers : NumberParsers K) (s : SnapshotLoop K Msg Diff) : Prop where
  reached : Reached checkPacketLost s
  inFlight : s.sync.snapshotRequestInFlight = true
  dead : live requestNewSnapshot iterate numbers s = 0

/-- The synchronisation handles no snapshot and does nothing but to buffer the diffs, and no request
is written. -/
structure Idles (es : List (LoopEvent Msg Diff)) (s s' : SnapshotLoop K Msg Diff)
    (out : List (LoopAction K Msg Diff)) : Prop where
  snapshots : .processSnapshot ∉ es
  effects : effects out = []
  written : ∀ request, .session (.write request) ∉ out
  buffer : s'.sync.diffs = s.sync.diffs ++ es.filterMap LoopEvent.diff?

variable {s : SnapshotLoop K Msg Diff} {es : List (LoopEvent Msg Diff)}

theorem Reached.step (hone : ∀ pair, (requestNewSnapshot pair).OneRun)
    (h : Reached checkPacketLost s) {e : LoopEvent Msg Diff} (he : s.Enabled e) :
    Reached checkPacketLost (s.step checkPacketLost requestNewSnapshot iterate numbers e).1 := by
  obtain ⟨es, out, handled, hrun⟩ := h
  obtain ⟨handled', hnext⟩ := loopRun_step hone hrun he
  exact ⟨_, _, handled', hnext⟩

/-- While the flag is raised, a diff is buffered. -/
theorem Reached.processDiff (h : Reached checkPacketLost s)
    (hflag : s.sync.snapshotRequestInFlight = true) (d : Diff) :
    s.sync.processDiff checkPacketLost d = ({ s.sync with diffs := s.sync.diffs ++ [d] }, []) := by
  obtain ⟨es, out, handled, hrun⟩ := h
  obtain ⟨p, hp⟩ := hrun.inv.phase
  have hphase := hp.flags
  rw [← hrun.sync] at hphase
  rw [hphase.inFlight] at hflag
  obtain rfl := of_decide_eq_true hflag
  exact processDiff_inFlight hphase d

theorem Reached.oneRun (h : Reached checkPacketLost s) :
    ∀ session ∈ s.sessions, session.OneRun := by
  obtain ⟨es, out, handled, hrun⟩ := h
  exact hrun.inv.oneRun

/-- A step of the others does nothing that the synchronisation notices. -/
theorem Lost.quiet (hone : ∀ pair, (requestNewSnapshot pair).OneRun)
    (h : Lost checkPacketLost requestNewSnapshot iterate numbers s) {e : LoopEvent Msg Diff}
    (he : s.Enabled e) {next : SnapshotLoop K Msg Diff × List (LoopAction K Msg Diff)}
    (hnext : s.step checkPacketLost requestNewSnapshot iterate numbers e = next)
    (hdiff : e.diff? = none) (hother : e ≠ .processSnapshot) (hsync : next.1.sync = s.sync)
    (hwritten : ∀ request, .session (.write request) ∉ next.2) :
    Lost checkPacketLost requestNewSnapshot iterate numbers next.1 ∧
      Idles [e] s next.1 next.2 := by
  have hcredit := credit_step checkPacketLost (weighs_live requestNewSnapshot iterate numbers)
    h.reached.oneRun he
  have heffects : effects
      (s.step checkPacketLost requestNewSnapshot iterate numbers e).2 = [] := effects_step hdiff s
  have hreached : Reached checkPacketLost
      (s.step checkPacketLost requestNewSnapshot iterate numbers e).1 := h.reached.step hone he
  have hdead := h.dead
  rw [hnext] at hcredit heffects hreached
  rw [heffects, List.countP_nil] at hcredit
  refine ⟨⟨hreached, hsync ▸ h.inFlight, ?_⟩, ?_, heffects, hwritten, ?_⟩
  · exact Nat.le_zero.mp (hdead ▸ Nat.le_trans (Nat.le_add_right _ _) hcredit)
  · exact fun hmem => hother (List.mem_singleton.mp hmem).symm
  · rw [hsync, List.filterMap_cons_none hdiff, List.filterMap_nil, List.append_nil]

/-- **One step after a loss**. -/
theorem Lost.step (hone : ∀ pair, (requestNewSnapshot pair).OneRun)
    (h : Lost checkPacketLost requestNewSnapshot iterate numbers s) {e : LoopEvent Msg Diff}
    (he : s.Enabled e) :
    Lost checkPacketLost requestNewSnapshot iterate numbers
        (s.step checkPacketLost requestNewSnapshot iterate numbers e).1 ∧
      Idles [e] s (s.step checkPacketLost requestNewSnapshot iterate numbers e).1
        (s.step checkPacketLost requestNewSnapshot iterate numbers e).2 := by
  cases e with
  | processDiff d =>
    have hreached : Reached checkPacketLost
        (s.step checkPacketLost requestNewSnapshot iterate numbers (.processDiff d)).1 :=
      h.reached.step hone he
    have hstep : s.step checkPacketLost requestNewSnapshot iterate numbers (.processDiff d) =
        ({ s with sync := { s.sync with diffs := s.sync.diffs ++ [d] } }, []) := by
      unfold SnapshotLoop.step
      dsimp only
      rw [h.reached.processDiff h.inFlight d, List.filterMap_nil, List.append_nil]
      rfl
    rw [hstep] at hreached ⊢
    refine ⟨⟨hreached, h.inFlight, h.dead⟩, fun hmem => ?_, rfl, fun _ => List.not_mem_nil, rfl⟩
    cases List.mem_singleton.mp hmem
  | requestNewSnapshot =>
    refine h.quiet hone he rfl rfl nofun ?_ ?_
    · unfold SnapshotLoop.step
      dsimp only
      split <;> rfl
    · unfold SnapshotLoop.step
      dsimp only
      split <;> exact fun _ => List.not_mem_nil
  | session i e =>
    have ⟨session, hget, hsession⟩ := he
    have hmem := List.mem_of_getElem? hget
    have hsilent := mayAnswer_of_credit_eq_zero h.dead hmem
    refine h.quiet hone he rfl rfl nofun ?_ ?_
    · unfold SnapshotLoop.step
      dsimp only
      rw [hget]
    · intro request hwritten
      unfold SnapshotLoop.step at hwritten
      dsimp only at hwritten
      rw [hget] at hwritten
      obtain ⟨action, haction, heq⟩ := List.mem_map.mp hwritten
      obtain rfl := LoopAction.session.inj heq
      have hanswer := (RestSession.stepped_step (h.reached.oneRun session hmem) hsession).written
        request haction
      exact absurd (hsilent.symm.trans hanswer) Bool.false_ne_true
  | start => exact h.quiet hone he rfl rfl nofun rfl fun _ => List.not_mem_nil
  | processQueue => exact h.quiet hone he rfl rfl nofun rfl fun _ => List.not_mem_nil
  | processSnapshot =>
    -- there is none
    have hdead := h.dead
    unfold live credit at hdead
    exact absurd (List.length_eq_zero_iff.mp (by omega)) he

/-- **A loss is for good**: in every run after it the synchronisation only buffers, and no request
is written any more. -/
theorem Lost.run (hone : ∀ pair, (requestNewSnapshot pair).OneRun)
    (h : Lost checkPacketLost requestNewSnapshot iterate numbers s)
    (hlegal : (snapshotLoop checkPacketLost requestNewSnapshot iterate numbers).Legal s es) :
    let M := snapshotLoop checkPacketLost requestNewSnapshot iterate numbers
    Lost checkPacketLost requestNewSnapshot iterate numbers (M.final s es) ∧
      Idles es s (M.final s es) (M.trace s es) := by
  refine Machine.invariant_events _
    (P := fun es s' out => Lost checkPacketLost requestNewSnapshot iterate numbers s' ∧
      Idles es s s' out) ?_ ?_ hlegal
  · rintro pre s' out e he ⟨hlost, hidle⟩
    obtain ⟨hnext, hstep⟩ := hlost.step hone he
    refine ⟨hnext, fun hmem => ?_, ?_, fun request hmem => ?_, ?_⟩
    · rcases List.mem_append.mp hmem with hmem | hmem
      · exact hidle.snapshots hmem
      · exact hstep.snapshots hmem
    · rw [effects_append, hidle.effects]
      exact hstep.effects
    · rcases List.mem_append.mp hmem with hmem | hmem
      · exact hidle.written request hmem
      · exact hstep.written request hmem
    · rw [List.filterMap_append, ← List.append_assoc, ← hidle.buffer]
      exact hstep.buffer
  · exact ⟨h, List.not_mem_nil, rfl, fun _ => List.not_mem_nil, (List.append_nil _).symm⟩

/-! ### Requests that are never made -/

omit [OrderBookDiffEventInterface Diff] in
/-- Before the first diff there is nothing to do. -/
theorem exists_first_diff {e : LoopEvent Msg Diff} (h : ({} : SnapshotLoop K Msg Diff).Enabled e) :
    ∃ d, e = .processDiff d := by
  cases e with
  | processDiff d => exact ⟨d, rfl⟩
  | requestNewSnapshot => exact absurd rfl h
  | session i e =>
    obtain ⟨session, hget, -⟩ := h
    cases hget
  | start => exact absurd rfl h.1
  | processQueue => exact absurd rfl h
  | processSnapshot => exact absurd rfl h

/-- What becomes of a synchronisation whose first request is not sent: it clears the book at the
first diff, handles no snapshot, buffers all diffs, and no request is written. -/
structure NeverSynchronises (es : List (LoopEvent Msg Diff)) (s : SnapshotLoop K Msg Diff)
    (out : List (LoopAction K Msg Diff)) : Prop where
  snapshots : .processSnapshot ∉ es
  /-- the first event is a diff, and its step has all the effects that there are -/
  first : es ≠ [] → ∃ d fs outs, es = .processDiff d :: fs ∧
    out = .sync (.orderBook .clear) :: .sync (.requestNewSnapshot (tradingPair d)) :: outs ∧
    Binance.effects outs = []
  effects : effects out = (es.filterMap LoopEvent.diff?).head?.toList.flatMap fun d =>
    [.orderBook .clear, .requestNewSnapshot (tradingPair d)]
  written : ∀ request, .session (.write request) ∉ out
  buffer : s.sync.diffs = es.filterMap LoopEvent.diff?

theorem neverSynchronises (hone : ∀ pair, (requestNewSnapshot pair).OneRun)
    (h : (snapshotLoop checkPacketLost requestNewSnapshot iterate numbers).Legal {} es)
    (hsilent : ∀ d ∈ (es.filterMap LoopEvent.diff?).head?,
      (requestNewSnapshot (tradingPair d)).mayAnswer = false) :
    NeverSynchronises es
      ((snapshotLoop checkPacketLost requestNewSnapshot iterate numbers).final {} es)
      ((snapshotLoop checkPacketLost requestNewSnapshot iterate numbers).trace {} es) := by
  cases es with
  | nil => exact ⟨List.not_mem_nil, fun h => absurd rfl h, rfl, fun _ => List.not_mem_nil, rfl⟩
  | cons e es =>
    obtain ⟨he, hes⟩ := h
    obtain ⟨d, rfl⟩ := exists_first_diff he
    have hlost : Lost checkPacketLost requestNewSnapshot iterate numbers
        ((snapshotLoop checkPacketLost requestNewSnapshot iterate numbers).step {}
          (.processDiff d)).1 := by
      refine ⟨Reached.step hone ⟨_, _, _, loopRun_init⟩ he, rfl, ?_⟩
      -- the request is all that is on its way
      show (requestNewSnapshot (tradingPair d)).mayAnswer.toNat + 0 + 0 + 0 + 0 = 0
      rw [hsilent d rfl]
      rfl
    obtain ⟨-, hidle⟩ := hlost.run hone hes
    refine ⟨fun hmem => ?_, fun _ => ⟨d, es, _, rfl, rfl, hidle.effects⟩, ?_,
      fun request hmem => ?_, hidle.buffer⟩
    · rcases List.mem_cons.mp hmem with hmem | hmem
      · cases hmem
      · exact hidle.snapshots hmem
    · rw [Machine.trace_cons, effects_append, hidle.effects, List.append_nil]
      rfl
    · rcases List.mem_append.mp hmem with hmem | hmem
      · rcases List.mem_cons.mp hmem with hmem | hmem
        · cases hmem
        · cases List.mem_singleton.mp hmem
      · exact hidle.written request hmem

/-- The session is not started. -/
theorem Spot.mayAnswer_requestNewSnapshot (pair : TradingPair) :
    (Spot.requestNewSnapshot pair).mayAnswer = false := by
  unfold Spot.requestNewSnapshot RestSession.send
  split <;> rfl

/-- The session has a request if the pair has a name. -/
theorem Futures.mayAnswer_requestNewSnapshot (pair : TradingPair) :
    (Futures.requestNewSnapshot pair).mayAnswer = true ↔ pair ∈ aligned := by
  rw [← bigStringView_isSome_iff]
  unfold Futures.requestNewSnapshot RestSession.send SnapshotRequest.accept
  have hpair : (Futures.snapshotRequest pair).tradingPair = pair := rfl
  rw [hpair]
  cases TradingPairToBigStringView.convert pair with
  | none => exact Iff.rfl
  | some value => exact Iff.rfl

/-- **Synchronisations that never start**: the spot class never writes a request and so never gets a
snapshot; it clears the book once and buffers every diff.  The futures class does the same if the
pair of the first diff has no name in the converter. -/
theorem neverSynchronises_of_legal (iterate : Msg → Option Json) (numbers : NumberParsers K) :
    (∀ es : List (LoopEvent Msg (OrderBookDiffEvent K K)),
      (Spot.snapshotLoop iterate numbers).Legal {} es →
      NeverSynchronises es ((Spot.snapshotLoop iterate numbers).final {} es)
        ((Spot.snapshotLoop iterate numbers).trace {} es)) ∧
    (∀ es : List (LoopEvent Msg (Futures.OrderBookDiffEvent K K)),
      (Futures.snapshotLoop iterate numbers).Legal {} es →
      (∀ d ∈ (es.filterMap LoopEvent.diff?).head?, d.tradingPair ∉ aligned) →
      NeverSynchronises es ((Futures.snapshotLoop iterate numbers).final {} es)
        ((Futures.snapshotLoop iterate numbers).trace {} es)) := by
  refine ⟨fun es h => ?_, fun es h hfirst => ?_⟩
  · exact neverSynchronises Spot.requestNewSnapshot_oneRun h
      fun d _ => Spot.mayAnswer_requestNewSnapshot d.tradingPair
  · refine neverSynchronises Futures.requestNewSnapshot_oneRun h fun d hd => ?_
    rw [← Bool.not_eq_true, Futures.mayAnswer_requestNewSnapshot]
    exact hfirst d hd

/-- The spot session polls its handler, and a second diff comes. -/
def unstartedRun : List (LoopEvent Json (OrderBookDiffEvent ℕ ℕ)) :=
  [.processDiff { firstUpdateId := 1, finalUpdateId := 2, tradingPair := .kBTCUSDT },
    .requestNewSnapshot, .session 0 (.poll true),
    .processDiff { firstUpdateId := 3, finalUpdateId := 4, tradingPair := .kBTCUSDT }]

/-- A futures pair without a name: `Run` connects, finds no request and ends. -/
def namelessRun : List (LoopEvent Json (Futures.OrderBookDiffEvent ℕ ℕ)) :=
  [.processDiff { firstUpdateId := 1, finalUpdateId := 2, tradingPair := .kSOLUSDT },
    .requestNewSnapshot, .session 0 (.poll true), .session 0 .done, .session 0 .done,
    .session 0 .done,
    .processDiff { firstUpdateId := 3, finalUpdateId := 4, tradingPair := .kSOLUSDT }]

theorem neverSynchronises_of_legal_twoRuns :
    NeverSynchronises unstartedRun ((Spot.snapshotLoop some anyNumbers).final {} unstartedRun)
        ((Spot.snapshotLoop some anyNumbers).trace {} unstartedRun) ∧
      NeverSynchronises namelessRun ((Futures.snapshotLoop some anyNumbers).final {} namelessRun)
        ((Futures.snapshotLoop some anyNumbers).trace {} namelessRun) := by
  have hspot : (Spot.snapshotLoop some anyNumbers).Legal {} unstartedRun :=
    ⟨trivial, List.cons_ne_nil _ _, ⟨_, rfl, List.cons_ne_nil _ _, nofun⟩, trivial, trivial⟩
  have hfutures : (Futures.snapshotLoop some anyNumbers).Legal {} namelessRun :=
    ⟨trivial, List.cons_ne_nil _ _, ⟨_, rfl, List.cons_ne_nil _ _, nofun⟩,
      ⟨_, rfl, nofun, nofun⟩, ⟨_, rfl, nofun, nofun⟩, ⟨_, rfl, nofun, nofun⟩, trivial, trivial⟩
  refine ⟨(neverSynchronises_of_legal some anyNumbers).1 unstartedRun hspot,
    (neverSynchronises_of_legal some anyNumbers).2 namelessRun hfutures fun d hd => ?_⟩
  obtain rfl := Option.some.inj hd
  decide

/-! ### Requests that can still be answered -/

/-- How far `Run` is from the response. -/
def RunPoint.toResponse : RunPoint → ℕ
  | .resolving => 4
  | .connecting => 3
  | .handshaking => 2
  | .writing => 1
  | .reading | .notifying => 0

namespace RestSession

/-- What the session has to do until it has read the response. -/
def remaining (s : RestSession) : ℕ := s.tasks.length + (s.run.map RunPoint.toResponse).getD 5

theorem advances_done {x : RestSession} {point point' : RunPoint} {queue : List HttpRequest}
    (hrun : x.run = some point) (hpoint : point ≠ .reading)
    (hstep : (x.step (.done : RestEvent Msg)).1 =
      { x with messageQueue := queue, run := some point' })
    (hanswer : mayAnswer { x with messageQueue := queue, run := some point' } = true)
    (hlt : point'.toResponse < point.toResponse) :
    ∃ e : RestEvent Msg, x.Enabled e ∧ (x.step e).1.mayAnswer = true ∧
      (x.step e).1.remaining < x.remaining := by
  refine ⟨.done, ⟨?_, ?_⟩, hstep ▸ hanswer, ?_⟩
  · rw [hrun]
    exact Option.some_ne_none point
  · rw [hrun]
    exact fun h => hpoint (Option.some.inj h)
  · rw [hstep]
    unfold remaining
    rw [hrun]
    exact Nat.add_lt_add_left hlt _

/-- A session that may answer reads the response, or goes on towards it. -/
theorem advances {x : RestSession} (h : x.OneRun) (hanswer : x.mayAnswer = true) :
    x.run = some .reading ∨ ∃ e : RestEvent Msg, x.Enabled e ∧
      (x.step e).1.mayAnswer = true ∧ (x.step e).1.remaining < x.remaining := by
  cases htasks : x.tasks with
  | cons task rest =>
    -- the context takes the task
    have hpoint : x.run ≠ some .notifying := by
      intro hrun
      unfold mayAnswer at hanswer
      rw [hrun] at hanswer
      cases hanswer
    refine .inr ⟨.poll true, ⟨by rw [htasks]; exact List.cons_ne_nil _ _, hpoint⟩, ?_⟩
    show (x.poll true).1.mayAnswer = true ∧ (x.poll true).1.remaining < x.remaining
    unfold poll
    rw [htasks]
    cases task with
    | enqueue request =>
      refine ⟨(mayAnswer_enqueue htasks).trans hanswer, ?_⟩
      unfold remaining
      rw [htasks, List.length_cons]
      exact Nat.add_lt_add_right (Nat.lt_succ_self _) _
    | run =>
      refine ⟨(mayAnswer_run h htasks).trans hanswer, ?_⟩
      unfold remaining
      rw [htasks, (run_eq_none h htasks).1, List.length_cons]
      show rest.length + 4 < rest.length + 1 + 5
      omega
  | nil =>
    unfold mayAnswer at hanswer
    cases hrun : x.run with
    | none =>
      rw [hrun, htasks] at hanswer
      cases hanswer
    | some point =>
      rw [hrun] at hanswer
      cases point with
      | reading => exact .inl rfl
      | notifying => cases hanswer
      | resolving =>
        have hstep : (x.step (.done : RestEvent Msg)).1 = { x with run := some .connecting } := by
          unfold RestSession.step resume
          rw [hrun]
        exact .inr (advances_done hrun nofun hstep hanswer (by decide))
      | connecting =>
        have hstep : (x.step (.done : RestEvent Msg)).1 = { x with run := some .handshaking } := by
          unfold RestSession.step resume
          rw [hrun]
        exact .inr (advances_done hrun nofun hstep hanswer (by decide))
      | handshaking =>
        -- the request has come into the queue
        unfold hasRequest at hanswer
        cases hqueue : x.messageQueue with
        | nil =>
          rw [hqueue, htasks] at hanswer
          cases hanswer
        | cons request rest =>
          have hstep : (x.step (.done : RestEvent Msg)).1 =
              { x with messageQueue := rest, run := some .writing } := by
            unfold RestSession.step resume requestLoop
            rw [hrun, hqueue]
          exact .inr (advances_done hrun nofun hstep rfl (by decide))
      | writing =>
        have hstep : (x.step (.done : RestEvent Msg)).1 = { x with run := some .reading } := by
          unfold RestSession.step resume
          rw [hrun]
        exact .inr (advances_done hrun nofun hstep rfl (by decide))

end RestSession

/-- A run leads to a state in which the flag is lowered. -/
abbrev CanRecover (checkPacketLost : UInt64 → Diff → Bool)
    (requestNewSnapshot : TradingPair → RestSession) (iterate : Msg → Option Json)
    (numbers : NumberParsers K) (s : SnapshotLoop K Msg Diff) : Prop :=
  (snapshotLoop checkPacketLost requestNewSnapshot iterate numbers).CanReach
    (fun s => s.sync.snapshotRequestInFlight = false) s

theorem canRecover_of_step {e : LoopEvent Msg Diff} (he : s.Enabled e)
    (h : CanRecover checkPacketLost requestNewSnapshot iterate numbers
      (s.step checkPacketLost requestNewSnapshot iterate numbers e).1) :
    CanRecover checkPacketLost requestNewSnapshot iterate numbers s :=
  Machine.CanReach.of_step he h

/-- A snapshot is handled. -/
theorem canRecover_of_snapshots (h : s.snapshots ≠ []) :
    CanRecover checkPacketLost requestNewSnapshot iterate numbers s := by
  refine canRecover_of_step (e := .processSnapshot) h (.of_now ?_)
  show (s.step checkPacketLost requestNewSnapshot iterate numbers
    .processSnapshot).1.sync.snapshotRequestInFlight = false
  cases hsnapshots : s.snapshots with
  | nil => exact absurd hsnapshots h
  | cons ptr rest =>
    unfold SnapshotLoop.step
    rw [hsnapshots]
    dsimp only
    unfold processSnapshot
    dsimp only
    split <;> rfl

/-- A message that has been dequeued is passed on. -/
theorem canRecover_of_dequeued {msg : Msg} (hrunning : s.listener.running = some (.dequeued msg))
    (hparses : parses iterate numbers msg = true) :
    CanRecover checkPacketLost requestNewSnapshot iterate numbers s := by
  have he : s.Enabled .processQueue := by
    show s.listener.running ≠ none
    rw [hrunning]
    exact nofun
  obtain ⟨event, hevent⟩ := Option.isSome_iff_exists.mp hparses
  obtain ⟨doc, hdoc, hparsed⟩ := Option.bind_eq_some_iff.mp hevent
  refine canRecover_of_step he (canRecover_of_snapshots ?_)
  show s.snapshots ++ (s.listener.processQueue
    (snapshotResponseListener iterate numbers s.tradingPair)).2.filterMap accepted ≠ []
  apply List.append_ne_nil_of_right_ne_nil
  unfold ListenerState.processQueue snapshotResponseListener
  rw [hrunning]
  dsimp only
  rw [hdoc]
  dsimp only
  rw [hparsed]
  exact List.cons_ne_nil _ _

/-- A call that is at the condition of the `while` takes the message. -/
theorem canRecover_of_running {msg : Msg} {rest : List Msg}
    (hrunning : s.listener.running = some .entered ∨ s.listener.running = some .again)
    (hqueue : s.listener.queue = msg :: rest) (hparses : parses iterate numbers msg = true) :
    CanRecover checkPacketLost requestNewSnapshot iterate numbers s := by
  have he : s.Enabled .processQueue := by
    show s.listener.running ≠ none
    obtain hrunning | hrunning := hrunning
    · rw [hrunning]
      exact nofun
    · rw [hrunning]
      exact nofun
  refine canRecover_of_step he (canRecover_of_dequeued ?_ hparses)
  show (s.listener.processQueue
    (snapshotResponseListener iterate numbers s.tradingPair)).1.running = some (.dequeued msg)
  unfold ListenerState.processQueue ListenerState.tryDequeue
  obtain hrunning | hrunning := hrunning
  · rw [hrunning, hqueue]
  · rw [hrunning, hqueue]

/-- A call that waits is started. -/
theorem canRecover_of_pending {msg : Msg} {rest : List Msg} (hrunning : s.listener.running = none)
    (hpending : s.listener.pending ≠ 0) (hqueue : s.listener.queue = msg :: rest)
    (hparses : parses iterate numbers msg = true) :
    CanRecover checkPacketLost requestNewSnapshot iterate numbers s :=
  canRecover_of_step (e := .start) ⟨hpending, hrunning⟩
    (canRecover_of_running (.inl rfl) hqueue hparses)

/-- A session that has put a message into the queue calls the listener. -/
theorem canRecover_of_notifying {i : ℕ} {session : RestSession}
    (hget : s.sessions[i]? = some session) (hnotifying : session.run = some .notifying)
    {msg : Msg} {rest : List Msg} (hrunning : s.listener.running = none)
    (hqueue : s.listener.queue = msg :: rest) (hparses : parses iterate numbers msg = true) :
    CanRecover checkPacketLost requestNewSnapshot iterate numbers s := by
  have he : s.Enabled (.session i .done) := by
    refine ⟨session, hget, ?_, ?_⟩
    · rw [hnotifying]
      exact nofun
    · rw [hnotifying]
      exact nofun
  have hdone : session.step (.done : RestEvent Msg) =
      ({ session with run := none }, [.onDataEnqueued, .closeSessionFast]) := by
    unfold RestSession.step RestSession.resume
    rw [hnotifying]
  refine canRecover_of_step he ?_
  rw [step_session hget, hdone]
  exact canRecover_of_pending hrunning (Nat.succ_ne_zero _) hqueue hparses

theorem Reached.onItsWay_le (h : Reached checkPacketLost s) : onItsWay s ≤ 1 := by
  obtain ⟨es, out, handled, hrun⟩ := h
  exact hrun.inv.onItsWay_le

/-- A message in the queue that no call will look at is one that the listener will be called
for. -/
theorem Reached.exists_notifying (h : Reached checkPacketLost s)
    (hrunning : s.listener.running = none) (hpending : s.listener.pending = 0)
    (hqueue : s.listener.queue ≠ []) :
    ∃ (i : ℕ) (session : RestSession), s.sessions[i]? = some session ∧
      session.run = some .notifying := by
  obtain ⟨es, out, handled, hrun⟩ := h
  have hnotified := hrun.inv.notified
  rw [hpending, enteredCalls_of_ne (by rw [hrunning]; exact nofun)] at hnotified
  by_contra hnone
  push Not at hnone
  have hsum : (s.sessions.map RestSession.unnotified).sum = 0 := by
    rw [List.sum_eq_zero_iff_forall_eq_nat]
    intro n hn
    obtain ⟨session, hmem, rfl⟩ := List.mem_map.mp hn
    obtain ⟨i, hget⟩ := List.mem_iff_getElem?.mp hmem
    exact RestSession.unnotified_of_ne (hnone i session hget)
  rw [hsum] at hnotified
  exact hqueue (List.length_eq_zero_iff.mp (Nat.le_zero.mp hnotified))

/-- The listener has a message that is a snapshot. -/
theorem canRecover_of_messages (h : Reached checkPacketLost s) {msg : Msg}
    (hmem : msg ∈ messages s.listener) (hparses : parses iterate numbers msg = true) :
    CanRecover checkPacketLost requestNewSnapshot iterate numbers s := by
  -- it is the only one
  have hone : messages s.listener = [msg] := by
    have hway := h.onItsWay_le
    unfold onItsWay credit at hway
    rw [sum_map_one, sum_map_one] at hway
    obtain ⟨m, hm⟩ := List.length_eq_one_iff.mp
      (Nat.le_antisymm (by omega) (List.length_pos_of_mem hmem))
    rw [hm] at hmem ⊢
    rw [List.mem_singleton.mp hmem]
  unfold messages at hone
  cases hrunning : s.listener.running with
  | none =>
    rw [hrunning] at hone
    have hqueue : s.listener.queue = [msg] := hone
    by_cases hpending : s.listener.pending = 0
    · obtain ⟨i, session, hget, hnotifying⟩ := h.exists_notifying hrunning hpending (by
        rw [hqueue]
        exact List.cons_ne_nil _ _)
      exact canRecover_of_notifying hget hnotifying hrunning hqueue hparses
    · exact canRecover_of_pending hrunning hpending hqueue hparses
  | some call =>
    rw [hrunning] at hone
    cases call with
    | entered => exact canRecover_of_running (.inl hrunning) hone hparses
    | again => exact canRecover_of_running (.inr hrunning) hone hparses
    | dequeued m =>
      obtain ⟨rfl, -⟩ := List.cons.inj hone
      exact canRecover_of_dequeued hrunning hparses

/-- A session that may answer gets a response. -/
theorem canRecover_of_session (hone : ∀ pair, (requestNewSnapshot pair).OneRun)
    {body : Msg} (hbody : parses iterate numbers body = true) (h : Reached checkPacketLost s)
    {i : ℕ} {session : RestSession} (hget : s.sessions[i]? = some session)
    (hanswer : session.mayAnswer = true) :
    CanRecover checkPacketLost requestNewSnapshot iterate numbers s := by
  refine Machine.canReach_of_measure
    (I := fun s => Reached checkPacketLost s ∧
      ∃ session, s.sessions[i]? = some session ∧ session.mayAnswer = true)
    (μ := fun s => (s.sessions[i]?.map RestSession.remaining).getD 0) ?_ ⟨h, session, hget, hanswer⟩
  rintro s ⟨h, session, hget, hanswer⟩
  have hadvances : session.run = some .reading ∨ ∃ e : RestEvent Msg, session.Enabled e ∧
      (session.step e).1.mayAnswer = true ∧ (session.step e).1.remaining < session.remaining :=
    RestSession.advances (h.oneRun session (List.mem_of_getElem? hget)) hanswer
  rcases hadvances with hreading | ⟨e, he, hanswer', hlt⟩
  · -- the response is one that can be parsed
    left
    have henabled : s.Enabled (.session i (.response body)) := ⟨session, hget, hreading⟩
    refine canRecover_of_step henabled (canRecover_of_messages (h.step hone henabled) ?_ hbody)
    rw [step_session hget]
    dsimp only
    rw [messages_afterSession]
    exact List.mem_append_right _ (List.mem_singleton_self body)
  · right
    have henabled : s.Enabled (.session i e) := ⟨session, hget, he⟩
    have hnext : (s.step checkPacketLost requestNewSnapshot iterate numbers
        (.session i e)).1.sessions[i]? = some (session.step e).1 := by
      rw [step_session hget]
      exact List.getElem?_set_self (List.getElem?_eq_some_iff.mp hget).1
    refine ⟨.session i e, henabled, ⟨h.step hone henabled, _, hnext, hanswer'⟩, ?_⟩
    show ((s.step checkPacketLost requestNewSnapshot iterate numbers
      (.session i e)).1.sessions[i]?.map RestSession.remaining).getD 0 < _
    rw [hnext, hget]
    exact hlt

/-- A request that is sent makes a session that may answer. -/
theorem canRecover_of_requests (hone : ∀ pair, (requestNewSnapshot pair).OneRun)
    {body : Msg} (hbody : parses iterate numbers body = true) (h : Reached checkPacketLost s)
    {pair : TradingPair} {rest : List TradingPair} (hrequests : s.requests = pair :: rest)
    (hanswer : (requestNewSnapshot pair).mayAnswer = true) :
    CanRecover checkPacketLost requestNewSnapshot iterate numbers s := by
  have he : s.Enabled .requestNewSnapshot := by
    show s.requests ≠ []
    rw [hrequests]
    exact List.cons_ne_nil _ _
  have hget : (s.step checkPacketLost requestNewSnapshot iterate numbers
      .requestNewSnapshot).1.sessions[s.sessions.length]? = some (requestNewSnapshot pair) := by
    unfold SnapshotLoop.step
    dsimp only
    rw [hrequests]
    exact List.getElem?_concat_length
  exact canRecover_of_step he (canRecover_of_session hone hbody (h.step hone he) hget hanswer)

/-- Whatever weighs anything leads on to a snapshot. -/
theorem canRecover_of_live (hone : ∀ pair, (requestNewSnapshot pair).OneRun)
    {body : Msg} (hbody : parses iterate numbers body = true) (h : Reached checkPacketLost s)
    (hlive : live requestNewSnapshot iterate numbers s ≠ 0) :
    CanRecover checkPacketLost requestNewSnapshot iterate numbers s := by
  by_contra hnot
  apply hlive
  have hway := h.onItsWay_le
  unfold onItsWay credit at hway
  rw [sum_map_one, sum_map_one] at hway
  unfold live credit
  have hsnapshots : s.snapshots.length = 0 := by
    by_contra hne
    exact hnot (canRecover_of_snapshots fun hnil => hne (hnil ▸ rfl))
  have hmessages : ((messages s.listener).map fun msg => (parses iterate numbers msg).toNat).sum =
      0 := by
    rw [List.sum_eq_zero_iff_forall_eq_nat]
    intro n hn
    obtain ⟨msg, hmem, rfl⟩ := List.mem_map.mp hn
    rw [Bool.toNat_eq_zero, ← Bool.not_eq_true]
    exact fun hparses => hnot (canRecover_of_messages h hmem hparses)
  have hsessions : (s.sessions.map fun session => session.mayAnswer.toNat).sum = 0 := by
    rw [List.sum_eq_zero_iff_forall_eq_nat]
    intro n hn
    obtain ⟨session, hmem, rfl⟩ := List.mem_map.mp hn
    rw [Bool.toNat_eq_zero, ← Bool.not_eq_true]
    obtain ⟨i, hget⟩ := List.mem_iff_getElem?.mp hmem
    exact fun hanswer => hnot (canRecover_of_session hone hbody h hget hanswer)
  have hrequests : (s.requests.map fun pair => (requestNewSnapshot pair).mayAnswer.toNat).sum =
      0 := by
    cases hlist : s.requests with
    | nil => rfl
    | cons pair rest =>
      -- there is no other request behind it
      rw [hlist, List.length_cons] at hway
      have hrest : rest = [] := List.length_eq_zero_iff.mp (by omega)
      rw [hrest]
      show (requestNewSnapshot pair).mayAnswer.toNat + 0 = 0
      rw [Nat.add_zero, Bool.toNat_eq_zero, ← Bool.not_eq_true]
      exact fun hanswer => hnot (canRecover_of_requests hone hbody h hlist hanswer)
  omega

/-- **When a synchronisation can go on**: while it waits for a snapshot, there is a run that brings
it one exactly if something that can become a snapshot is on its way.  If nothing is, then in every
run from there it only buffers, and no request is written. -/
theorem canRecover_iff {body : Msg} (hbody : parses iterate numbers body = true)
    {es : List (LoopEvent Msg (Futures.OrderBookDiffEvent K K))}
    (h : (Futures.snapshotLoop iterate numbers).Legal {} es)
    (hflag : ((Futures.snapshotLoop iterate numbers).final {}
      es).sync.snapshotRequestInFlight = true) :
    let M := Futures.snapshotLoop (K := K) iterate numbers
    let s := M.final {} es
    (M.CanReach (fun s => s.sync.snapshotRequestInFlight = false) s ↔
      live Futures.requestNewSnapshot iterate numbers s ≠ 0) ∧
    (live Futures.requestNewSnapshot iterate numbers s = 0 → ∀ fs, M.Legal s fs →
      Idles fs s (M.final s fs) (M.trace s fs)) := by
  intro M s
  obtain ⟨handled, hrun⟩ := exists_loopRun Futures.requestNewSnapshot_oneRun h
  have hreached : Reached Futures.checkPacketLost s := ⟨_, _, _, hrun⟩
  have hlost : live Futures.requestNewSnapshot iterate numbers s = 0 →
      Lost Futures.checkPacketLost Futures.requestNewSnapshot iterate numbers s :=
    fun hdead => ⟨hreached, hflag, hdead⟩
  refine ⟨⟨?_, canRecover_of_live Futures.requestNewSnapshot_oneRun hbody hreached⟩,
    fun hdead fs hfs => ((hlost hdead).run Futures.requestNewSnapshot_oneRun hfs).2⟩
  rintro ⟨fs, hfs, hlowered⟩ hdead
  obtain ⟨hstill, -⟩ := (hlost hdead).run Futures.requestNewSnapshot_oneRun hfs
  exact Bool.false_ne_true (hlowered.symm.trans hstill.inFlight)

theorem resolvingRun_legal : (Futures.snapshotLoop some anyNumbers).Legal {} resolvingRun :=
  ⟨trivial, List.cons_ne_nil _ _, ⟨_, rfl, List.cons_ne_nil _ _, nofun⟩,
    ⟨_, rfl, List.cons_ne_nil _ _, nofun⟩, trivial⟩

/-- Once the host cannot be resolved, no run brings a snapshot any more; before that, one does. -/
theorem canRecover_iff_resolvingRun :
    let M := Futures.snapshotLoop (K := ℕ) some anyNumbers
    M.CanReach (fun s => s.sync.snapshotRequestInFlight = false) (M.final {} resolvingRun) ∧
    ¬ M.CanReach (fun s => s.sync.snapshotRequestInFlight = false)
      (M.final {} (resolvingRun ++ [.session 0 .failed])) := by
  intro M
  have hbody : parses some anyNumbers emptyAnswer = true := rfl
  have hfailed : M.Legal {} (resolvingRun ++ [.session 0 .failed]) :=
    (M.allSteps_append _ _ _ _).mpr ⟨resolvingRun_legal, ⟨_, rfl, nofun, nofun⟩, trivial⟩
  refine ⟨(canRecover_iff hbody resolvingRun_legal rfl).1.mpr ?_, fun hreach => ?_⟩
  · exact Nat.one_ne_zero
  · exact (canRecover_iff hbody hfailed rfl).1.mp hreach rfl

end CryptobotAlgo.Aoe.Binance
