import CryptobotAlgo.Aoe.Binance.Equiv.OrderBookSync

/-!
# The phase invariant of the Binance synchronisation

`SyncInvAt p s t` holds in phase `p` of the state `s` after the calls `t`: it ties the phase to
the number of unanswered requests, to the buffer, to the stored snapshot and to the calls made so
far.  Both handlers preserve it (`syncInv_snapshot`, `syncInv_diff`), whatever the test for a lost
packet, so it holds after every legal run (`syncInv_of_legal`).

`phase_invariant` reads off what it says in every state between two handler calls, for both
markets.
-/

namespace CryptobotAlgo.Aoe.Binance

open Aos Feed OrderBookSync

variable {Price Qty Diff : Type*}

/-- Where the automaton of the call grammar is in each phase. -/
def CallOrder (p : SyncPhase) (t : List (Call (OrderBookSnapshotEvent Price Qty) Diff)) : Prop :=
  match p with
  | .needSnapshot => ∃ q, phaseAfter .idle t = some q
  | .inFlight => phaseAfter .idle t = some .cleared
  | .waiting => phaseAfter .idle t = some .cleared
  | .synced => phaseAfter .idle t = some .live

theorem CallOrder.exists_phaseAfter {p : SyncPhase}
    {t : List (Call (OrderBookSnapshotEvent Price Qty) Diff)} (h : CallOrder p t) :
    ∃ q, phaseAfter .idle t = some q := by
  cases p with
  | needSnapshot => exact h
  | inFlight => exact ⟨_, h⟩
  | waiting => exact ⟨_, h⟩
  | synced => exact ⟨_, h⟩

variable [OrderBookDiffEventInterface Diff] {checkPacketLost : UInt64 → Diff → Bool}

/-- The invariant in phase `p`. -/
structure SyncInvAt (p : SyncPhase) (s : SyncState Price Qty Diff)
    (t : List (Call (OrderBookSnapshotEvent Price Qty) Diff)) : Prop where
  flags : InPhase s.sync p
  outstanding : s.outstanding = if p = .inFlight then 1 else 0
  order : CallOrder p t
  /-- a synced class buffers nothing -/
  buffer : p = .synced → s.sync.diffs = []
  /-- a waiting snapshot is stored under its id -/
  snapshot : p = .waiting →
    ∃ e, s.sync.lastSnapshot = some e ∧ e.updateId = s.sync.lastSnapshotUpdateId
  /-- the first buffered diff bridges a waiting snapshot -/
  front : p = .waiting →
    ∀ d ∈ s.sync.diffs.head?, bridges s.sync.lastSnapshotUpdateId d = true
  /-- a synced class remembers the id of the last diff it forwarded -/
  link : p = .synced →
    ∃ d, linkAfter .closed t = .linked d ∧ s.sync.lastDiffUpdateId = finalUpdateId d

/-- The invariant. -/
def SyncInv (s : SyncState Price Qty Diff)
    (t : List (Call (OrderBookSnapshotEvent Price Qty) Diff)) : Prop :=
  ∃ p, SyncInvAt p s t

theorem syncInv_init : SyncInv ({} : SyncState Price Qty Diff) [] :=
  ⟨.needSnapshot, ⟨rfl, rfl, rfl, rfl⟩, rfl, ⟨.idle, rfl⟩, by simp, by simp, by simp, by simp⟩

/-- A request is unanswered exactly in the phase `inFlight`. -/
theorem SyncInvAt.inFlight_of_outstanding {p : SyncPhase} {s : SyncState Price Qty Diff}
    {t : List (Call (OrderBookSnapshotEvent Price Qty) Diff)} (h : SyncInvAt p s t)
    (hout : 0 < s.outstanding) : p = .inFlight := by
  by_contra hp
  rw [h.outstanding, if_neg hp] at hout
  exact lt_irrefl 0 hout

/-! ### The handlers preserve it -/

/-- A snapshot that answers a request leaves the phase `inFlight`: to `waiting`, or back to
`needSnapshot` when its trading pair is not set. -/
theorem syncInv_snapshot {s : SyncState Price Qty Diff}
    {t : List (Call (OrderBookSnapshotEvent Price Qty) Diff)} (h : SyncInv s t)
    (hout : 0 < s.outstanding) (ptr : OrderBookSnapshotEvent Price Qty) :
    SyncInv ⟨s.sync.processSnapshot ptr, s.outstanding - 1⟩ t := by
  obtain ⟨p, hp⟩ := h
  obtain rfl := hp.inFlight_of_outstanding hout
  have horder : phaseAfter .idle t = some .cleared := hp.order
  have hzero : s.outstanding - 1 = 0 := by rw [hp.outstanding]; rfl
  obtain ⟨pre, -, -, -, hfront⟩ :=
    skipEarlierDiffs_spec ptr.updateId s.sync.lastDiffUpdateId s.sync.diffs
  unfold processSnapshot
  dsimp only
  split_ifs with hpair
  · -- the response could not be parsed
    refine ⟨.needSnapshot, ⟨rfl, rfl, rfl, hp.flags.processed⟩, hzero, ⟨_, horder⟩, ?_, ?_, ?_, ?_⟩
      <;> intro h <;> cases h
  · refine ⟨.waiting, ⟨hp.flags.needMake, rfl, rfl, hp.flags.processed⟩, hzero, horder, ?_,
      fun _ => ⟨ptr, rfl, rfl⟩, fun _ => hfront, ?_⟩ <;> intro h <;> cases h

section Diff

variable {s : SyncState Price Qty Diff} {t : List (Call (OrderBookSnapshotEvent Price Qty) Diff)}

/-- The invariant after the diff `d`, for a handler that returns `r`. -/
def InvAfterDiff (s : SyncState Price Qty Diff)
    (t : List (Call (OrderBookSnapshotEvent Price Qty) Diff))
    (r : OrderBookSync Price Qty Diff × List (Effect Price Qty Diff)) : Prop :=
  SyncInv ⟨r.1, s.outstanding + r.2.countP Effect.isRequest⟩ (t ++ calls r.2)

/-- The book is cleared and a snapshot is requested. -/
theorem invAfterDiff_needSnapshot (h : SyncInvAt .needSnapshot s t) (d : Diff) :
    InvAfterDiff s t (s.sync.processDiff checkPacketLost d) := by
  rw [processDiff_needSnapshot h.flags]
  obtain ⟨q, hq⟩ := h.order
  have hout : s.outstanding = 0 := h.outstanding
  have horder : phaseAfter .idle (t ++ [.clear]) = some .cleared := by
    rw [phaseAfter_append, hq, Option.bind_some, phaseAfter_cons, Phase.next_clear,
      Option.bind_some, phaseAfter_nil]
  refine ⟨.inFlight, ⟨rfl, rfl, h.flags.needProcess, h.flags.processed⟩, ?_, horder, ?_, ?_, ?_, ?_⟩
  · dsimp only
    rw [hout]
    rfl
  all_goals intro h; cases h

/-- The diff is buffered. -/
theorem invAfterDiff_inFlight (h : SyncInvAt .inFlight s t) (d : Diff) :
    InvAfterDiff s t (s.sync.processDiff checkPacketLost d) := by
  unfold InvAfterDiff
  rw [processDiff_inFlight h.flags, calls_nil, List.append_nil]
  refine ⟨.inFlight, ⟨h.flags.needMake, h.flags.inFlight, h.flags.needProcess, h.flags.processed⟩,
    h.outstanding, h.order, ?_, ?_, ?_, ?_⟩
  all_goals intro h; cases h

/-- The snapshot and the buffer are forwarded. -/
theorem invAfterDiff_waiting (h : SyncInvAt .waiting s t) (d : Diff) :
    InvAfterDiff s t (s.sync.processDiff checkPacketLost d) := by
  obtain ⟨e, he, -⟩ := h.snapshot rfl
  unfold InvAfterDiff
  rw [processDiff_waiting h.flags he]
  dsimp only
  obtain ⟨fwd, rest, hsplit, hdr⟩ :=
    exists_drained checkPacketLost (s.sync.applied d) (s.sync.diffs ++ [d])
  have hreq : s.outstanding + (Effect.orderBook (.snapshot e) :: fwd.map fun d =>
      (.orderBook (.diff d) : Effect Price Qty Diff)).countP Effect.isRequest = 0 := by
    rw [List.countP_cons_of_neg (by simp [Effect.isRequest]), countP_isRequest_map_diff,
      Nat.add_zero]
    exact h.outstanding
  rw [hdr.effects, hreq, calls_cons_orderBook, calls_map_diff]
  have hlive := phaseAfter_cleared_snapshot_diffs h.order e fwd
  have hflight := hdr.inFlight.trans h.flags.inFlight
  cases rest with
  | nil =>
    -- the new diff was the last of the buffer, so the chain ends with it
    rw [List.append_nil] at hsplit
    obtain ⟨hmake, hproc⟩ := hdr.kept rfl
    have hlink : linkAfter .closed (t ++ .snapshot e :: fwd.map .diff) = .linked d := by
      rw [← hsplit]
      exact linkAfter_snapshot_diffs _ t e s.sync.diffs d
    have hlast := hdr.lastId
    rw [← hsplit, lastIdAfter_concat] at hlast
    refine ⟨.synced, ⟨hmake.trans h.flags.needMake, hflight, hdr.needProcess, hproc⟩, rfl, hlive,
      fun _ => hdr.diffs, ?_, ?_, fun _ => ⟨d, hlink, hlast⟩⟩
    all_goals intro h; cases h
  | cons x rest =>
    -- a buffered diff is taken for a loss
    obtain ⟨-, hmake, hproc⟩ := hdr.lost x rfl
    refine ⟨.needSnapshot, ⟨hmake, hflight, hdr.needProcess, hproc⟩, rfl, ⟨_, hlive⟩, ?_, ?_, ?_,
      ?_⟩
    all_goals intro h; cases h

/-- The diff is forwarded at once, or it breaks the chain and a new snapshot is needed. -/
theorem invAfterDiff_synced (h : SyncInvAt .synced s t) (d : Diff) :
    InvAfterDiff s t (s.sync.processDiff checkPacketLost d) := by
  have horder : phaseAfter .idle t = some .live := h.order
  unfold InvAfterDiff
  cases hlost : checkPacketLost s.sync.lastDiffUpdateId d with
  | false =>
    rw [processDiff_synced_of_continues h.flags hlost]
    obtain ⟨d₀, hd₀, -⟩ := h.link rfl
    have horder' : phaseAfter .idle (t ++ [.diff d]) = some .live := by
      rw [phaseAfter_append, horder, Option.bind_some]
      rfl
    have hlink : linkAfter .closed (t ++ [.diff d]) = .linked d := by
      rw [linkAfter_append, hd₀]
      rfl
    refine ⟨.synced, ⟨h.flags.needMake, h.flags.inFlight, h.flags.needProcess, h.flags.processed⟩,
      h.outstanding, horder', h.buffer, ?_, ?_, fun _ => ⟨d, hlink, rfl⟩⟩
    all_goals intro h; cases h
  | true =>
    rw [processDiff_synced_of_lost h.flags (h.buffer rfl) hlost, calls_nil, List.append_nil]
    refine ⟨.needSnapshot, ⟨rfl, h.flags.inFlight, h.flags.needProcess, rfl⟩, h.outstanding,
      ⟨_, horder⟩, ?_, ?_, ?_, ?_⟩
    all_goals intro h; cases h

theorem syncInv_diff (h : SyncInv s t) (d : Diff) :
    InvAfterDiff s t (s.sync.processDiff checkPacketLost d) := by
  obtain ⟨p, hp⟩ := h
  cases p with
  | needSnapshot => exact invAfterDiff_needSnapshot hp d
  | inFlight => exact invAfterDiff_inFlight hp d
  | waiting => exact invAfterDiff_waiting hp d
  | synced => exact invAfterDiff_synced hp d

end Diff

theorem syncInv_step {s : SyncState Price Qty Diff} {t : List (Effect Price Qty Diff)}
    {e : Event Price Qty Diff} (he : (syncMachine checkPacketLost).enabled s e)
    (h : SyncInv s (calls t)) :
    SyncInv ((syncMachine checkPacketLost).step s e).1
      (calls (t ++ ((syncMachine checkPacketLost).step s e).2)) := by
  rw [calls_append]
  cases e with
  | snapshot ptr =>
    show SyncInv _ (calls t ++ calls [])
    rw [calls_nil, List.append_nil]
    exact syncInv_snapshot h he ptr
  | diff ptr => exact syncInv_diff h ptr

/-- The invariant holds after every legal run. -/
theorem syncInv_of_legal {es : List (Event Price Qty Diff)}
    (h : (syncMachine checkPacketLost).Legal {} es) :
    SyncInv ((syncMachine checkPacketLost).final {} es)
      (calls ((syncMachine checkPacketLost).trace {} es)) :=
  (syncMachine checkPacketLost).invariant (P := fun s t => SyncInv s (calls t))
    (fun _ _ _ he hP => syncInv_step he hP) syncInv_init h

/-! ### What it says between two handler calls -/

/-- In every state between two handler calls exactly one flag is raised, at most one request is
unanswered, and the calls made so far are in order. -/
structure WellPhased (s : SyncState Price Qty Diff)
    (t : List (Call (OrderBookSnapshotEvent Price Qty) Diff)) : Prop where
  oneFlag : ExactlyOneFlag s.sync
  oneRequest : s.outstanding ≤ 1
  /-- the calls are a prefix of a word of `(Clear⁺ Snapshot Diff*)*` -/
  grammar : ∃ w, t.map Call.kind ++ w ∈ callGrammar
  /-- no snapshot is applied to an uncleared book -/
  snapshotsCleared : SnapshotsCleared t
  /-- no diff reaches the book unless a snapshot was forwarded after the last `Clear` -/
  diffsBased : DiffsBased t

theorem SyncInv.wellPhased {s : SyncState Price Qty Diff}
    {t : List (Call (OrderBookSnapshotEvent Price Qty) Diff)} (h : SyncInv s t) :
    WellPhased s t := by
  obtain ⟨p, hp⟩ := h
  obtain ⟨q, hq⟩ := hp.order.exists_phaseAfter
  refine ⟨hp.flags.exactlyOneFlag, ?_, exists_mem_callGrammar hq,
    snapshotsCleared_of_phaseAfter hq, diffsBased_of_phaseAfter hq⟩
  rw [hp.outstanding]
  split_ifs
  · exact le_rfl
  · exact Nat.zero_le 1

/-- **The phase invariant**, for the spot and the futures class: it holds in every state that a run
reaches in which snapshots only answer requests. -/
theorem phase_invariant :
    (∀ es : List (Event Price Qty (OrderBookDiffEvent Price Qty)), Spot.machine.Legal {} es →
      WellPhased (Spot.machine.final {} es) (calls (Spot.machine.trace {} es))) ∧
    (∀ es : List (Event Price Qty (Futures.OrderBookDiffEvent Price Qty)),
      Futures.machine.Legal {} es →
      WellPhased (Futures.machine.final {} es) (calls (Futures.machine.trace {} es))) :=
  ⟨fun _ h => (syncInv_of_legal h).wellPhased, fun _ h => (syncInv_of_legal h).wellPhased⟩

/-- A diff, the snapshot it asks for, a diff that continues and one that does not. -/
def Spot.lossRun : List (Event ℕ ℕ (OrderBookDiffEvent ℕ ℕ)) :=
  [.diff { firstUpdateId := 1, finalUpdateId := 4, tradingPair := .kBTCUSDT },
    .snapshot { updateId := 2, tradingPair := .kBTCUSDT },
    .diff { firstUpdateId := 5, finalUpdateId := 6, tradingPair := .kBTCUSDT },
    .diff { firstUpdateId := 9, finalUpdateId := 9, tradingPair := .kBTCUSDT }]

/-- The same run for futures. -/
def Futures.lossRun : List (Event ℕ ℕ (Futures.OrderBookDiffEvent ℕ ℕ)) :=
  [.diff { firstUpdateId := 1, finalUpdateId := 4, tradingPair := .kBTCUSDT },
    .snapshot { updateId := 2, tradingPair := .kBTCUSDT },
    .diff { firstUpdateId := 5, finalUpdateId := 6, previousUpdateId := 4,
            tradingPair := .kBTCUSDT },
    .diff { firstUpdateId := 9, finalUpdateId := 9, previousUpdateId := 8,
            tradingPair := .kBTCUSDT }]

theorem phase_invariant_lossRun :
    WellPhased (Spot.machine.final {} Spot.lossRun)
        (calls (Spot.machine.trace {} Spot.lossRun)) ∧
      WellPhased (Futures.machine.final {} Futures.lossRun)
        (calls (Futures.machine.trace {} Futures.lossRun)) :=
  ⟨phase_invariant.1 Spot.lossRun (by decide), phase_invariant.2 Futures.lossRun (by decide)⟩

end CryptobotAlgo.Aoe.Binance
