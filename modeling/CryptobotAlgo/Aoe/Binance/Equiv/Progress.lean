import CryptobotAlgo.Aoe.Binance.Equiv.Phase

/-!
# Progress of the Binance synchronisation

A snapshot that a buffered diff bridges, followed by a diff that continues the buffer, should bring
the class in sync at once: the snapshot, the bridging diff and everything after it are forwarded.

The class also compares the bridging diff with the last id, that of the diff skipped before it or
one left by an earlier cycle, and takes a difference for a loss.  So it syncs exactly when that
comparison succeeds (`syncsWith_iff`, and `progress_iff` for the two markets).
-/

namespace CryptobotAlgo.Aoe.Binance

open Aos Feed OrderBookSync

variable {Price Qty : Type*}

/-- The snapshot `e` and then the diff `dnext` forward `e` and the diffs `ds`, have no other effect,
and leave the class synced. -/
structure SyncsWith {Diff : Type*}
    (M : Machine (SyncState Price Qty Diff) (Event Price Qty Diff) (Effect Price Qty Diff))
    (s : SyncState Price Qty Diff) (e : OrderBookSnapshotEvent Price Qty) (dnext : Diff)
    (ds : List Diff) : Prop where
  effects : M.trace s [.snapshot e, .diff dnext] =
    .orderBook (.snapshot e) :: ds.map fun d => .orderBook (.diff d)
  needMake : (M.final s [.snapshot e, .diff dnext]).sync.needMakeSnapshot = false
  processed : (M.final s [.snapshot e, .diff dnext]).sync.snapshotWasProcessed = true

/-- A request is unanswered and `e` answers it; of the buffered diffs `d` is the first that bridges
`e`, and the diffs from `d` on are contiguous up to `dnext`. -/
structure BridgedBuffer {Diff : Type*} [OrderBookDiffEventInterface Diff]
    (contiguous : Diff → Diff → Prop) (s : SyncState Price Qty Diff)
    (e : OrderBookSnapshotEvent Price Qty) (pre : List Diff) (d : Diff) (post : List Diff)
    (dnext : Diff) : Prop where
  outstanding : 0 < s.outstanding
  pair : e.tradingPair ≠ .kCount
  buffer : s.sync.diffs = pre ++ d :: post
  skipped : ∀ x ∈ pre, ¬ BridgesSnapshot e x
  bridging : BridgesSnapshot e d
  chain : (d :: (post ++ [dnext])).IsChain contiguous

section Generic

variable {Diff : Type*} [OrderBookDiffEventInterface Diff] {checkPacketLost : UInt64 → Diff → Bool}

/-! ### The two loops on a bridged buffer -/

/-- Diffs that are contiguous for the class's own test continue each other. -/
theorem continues_of_isChain {d : Diff} {ds : List Diff}
    (h : (d :: ds).IsChain fun d d' => checkPacketLost (finalUpdateId d) d' = false) :
    Continues checkPacketLost (finalUpdateId d) ds := by
  induction ds generalizing d with
  | nil => trivial
  | cons d' ds ih =>
    rw [List.isChain_cons_cons] at h
    exact ⟨h.1, ih h.2⟩

/-- A buffer in which nothing is lost is forwarded as a whole. -/
theorem drained_of_continues (s : OrderBookSync Price Qty Diff) {ds : List Diff}
    (h : Continues checkPacketLost s.lastDiffUpdateId ds) :
    Drained checkPacketLost s ds [] (drainDiffs checkPacketLost s ds) := by
  obtain ⟨fwd, rest, hsplit, hdr⟩ := exists_drained checkPacketLost s ds
  cases rest with
  | nil =>
    obtain rfl : ds = fwd := by rw [hsplit, List.append_nil]
    exact hdr
  | cons x rest =>
    rw [hsplit, continues_append] at h
    have hlost := (hdr.lost x rfl).1
    rw [h.2.1] at hlost
    cases hlost

/-- The snapshot trims the buffer down to the bridging diff and waits. -/
theorem processSnapshot_of_bridges {s : OrderBookSync Price Qty Diff}
    {e : OrderBookSnapshotEvent Price Qty} {pre post : List Diff} {d : Diff}
    (hpair : e.tradingPair ≠ .kCount) (hbuf : s.diffs = pre ++ d :: post)
    (hpre : ∀ x ∈ pre, ¬ BridgesSnapshot e x) (hd : BridgesSnapshot e d) :
    s.processSnapshot e =
      { s with
        lastSnapshotUpdateId := e.updateId
        lastSnapshot := some e
        snapshotRequestInFlight := false
        lastDiffUpdateId := lastIdAfter s.lastDiffUpdateId pre
        diffs := d :: post
        needProcessCurrentSnapshot := true } := by
  have hskip : ∀ x ∈ pre, bridges e.updateId x = false := fun x hx => by
    rw [← Bool.not_eq_true, bridges_iff]
    exact hpre x hx
  unfold processSnapshot
  rw [hbuf, skipEarlierDiffs_of_bridges hskip ((bridges_iff e d).mpr hd), if_neg hpair]

/-! ### Both events -/

/-- The class syncs exactly when the bridging diff is not taken for a lost packet. -/
theorem syncsWith_iff {s : SyncState Price Qty Diff}
    {t : List (Call (OrderBookSnapshotEvent Price Qty) Diff)} (hinv : SyncInv s t)
    {e : OrderBookSnapshotEvent Price Qty} {pre post : List Diff} {d dnext : Diff}
    (h : BridgedBuffer (fun d d' => checkPacketLost (finalUpdateId d) d' = false) s e pre d post
      dnext) :
    SyncsWith (syncMachine checkPacketLost) s e dnext (d :: (post ++ [dnext])) ↔
      checkPacketLost (lastIdAfter s.sync.lastDiffUpdateId pre) d = false := by
  obtain ⟨p, hp⟩ := hinv
  obtain rfl := hp.inFlight_of_outstanding h.outstanding
  have hsnap := processSnapshot_of_bridges h.pair h.buffer h.skipped h.bridging
  -- the snapshot waits with the trimmed buffer when the next diff arrives
  have hwait : InPhase (s.sync.processSnapshot e) .waiting := by
    rw [hsnap]
    exact ⟨hp.flags.needMake, rfl, rfl, hp.flags.processed⟩
  have hstored : (s.sync.processSnapshot e).lastSnapshot = some e := by rw [hsnap]
  have hdiffs : (s.sync.processSnapshot e).diffs = d :: post := by rw [hsnap]
  have hlast : ((s.sync.processSnapshot e).applied dnext).lastDiffUpdateId =
      lastIdAfter s.sync.lastDiffUpdateId pre := by
    rw [hsnap]
    rfl
  have htrace : (syncMachine checkPacketLost).trace s [.snapshot e, .diff dnext] =
      ((s.sync.processSnapshot e).processDiff checkPacketLost dnext).2 := by
    show [] ++ (_ ++ []) = _
    rw [List.nil_append, List.append_nil]
    rfl
  have hfinal : ((syncMachine checkPacketLost).final s [.snapshot e, .diff dnext]).sync =
      ((s.sync.processSnapshot e).processDiff checkPacketLost dnext).1 := rfl
  rw [processDiff_waiting hwait hstored, hdiffs, List.cons_append] at htrace hfinal
  dsimp only at htrace hfinal
  rw [← hlast]
  constructor
  · -- a loss at the front of the buffer forwards the snapshot alone
    intro hsync
    by_contra hlost
    rw [Bool.not_eq_false] at hlost
    have heffects := hsync.effects
    rw [htrace, drainDiffs, if_pos hlost] at heffects
    cases heffects
  · -- from the bridging diff on nothing is lost, so the whole buffer is forwarded
    intro hlost
    have hcont : Continues checkPacketLost
        ((s.sync.processSnapshot e).applied dnext).lastDiffUpdateId (d :: (post ++ [dnext])) :=
      ⟨hlost, continues_of_isChain h.chain⟩
    have hdr := drained_of_continues ((s.sync.processSnapshot e).applied dnext) hcont
    obtain ⟨hmake, hproc⟩ := hdr.kept rfl
    refine ⟨?_, ?_, ?_⟩
    · rw [htrace]
      exact congrArg _ hdr.effects
    · rw [hfinal]
      exact hmake.trans hwait.needMake
    · rw [hfinal]
      exact hproc

end Generic

/-! ### The two markets -/

/-- **Progress**: from every reachable state with a bridged buffer, the spot and the futures class
forward the snapshot, the bridging diff and all that follow, exactly when the bridging diff
continues the last id: that of the diff skipped before it, else the one left by an earlier
cycle. -/
theorem progress_iff :
    (∀ (es : List (Event Price Qty (OrderBookDiffEvent Price Qty)))
      (e : OrderBookSnapshotEvent Price Qty) (pre post : List (OrderBookDiffEvent Price Qty))
      (d dnext : OrderBookDiffEvent Price Qty), Spot.machine.Legal {} es →
      BridgedBuffer (fun d d' => d'.firstUpdateId = d.finalUpdateId + 1) (Spot.machine.final {} es)
        e pre d post dnext →
      (SyncsWith Spot.machine (Spot.machine.final {} es) e dnext (d :: (post ++ [dnext])) ↔
        Spot.checkPacketLost (lastIdAfter (Spot.machine.final {} es).sync.lastDiffUpdateId pre) d =
          false)) ∧
    (∀ (es : List (Event Price Qty (Futures.OrderBookDiffEvent Price Qty)))
      (e : OrderBookSnapshotEvent Price Qty)
      (pre post : List (Futures.OrderBookDiffEvent Price Qty))
      (d dnext : Futures.OrderBookDiffEvent Price Qty), Futures.machine.Legal {} es →
      BridgedBuffer (fun d d' => d'.previousUpdateId = d.finalUpdateId)
        (Futures.machine.final {} es) e pre d post dnext →
      (SyncsWith Futures.machine (Futures.machine.final {} es) e dnext (d :: (post ++ [dnext])) ↔
        Futures.checkPacketLost
          (lastIdAfter (Futures.machine.final {} es).sync.lastDiffUpdateId pre) d = false)) := by
  constructor
  · intro es e pre post d dnext hlegal h
    refine syncsWith_iff (syncInv_of_legal hlegal) ?_
    simp only [Spot.checkPacketLost_eq_false_iff]
    exact h
  · intro es e pre post d dnext hlegal h
    refine syncsWith_iff (syncInv_of_legal hlegal) ?_
    simp only [Futures.checkPacketLost_eq_false_iff]
    exact h

/-- A spot diff of ten updates. -/
def Spot.tenUpdates (first : UInt64) : OrderBookDiffEvent ℕ ℕ :=
  { firstUpdateId := first, finalUpdateId := first + 9, tradingPair := .kBTCUSDT }

/-- A futures diff of ten updates that names the update before it. -/
def Futures.tenUpdates (first : UInt64) : Futures.OrderBookDiffEvent ℕ ℕ :=
  { firstUpdateId := first, finalUpdateId := first + 9, previousUpdateId := first - 1,
    tradingPair := .kBTCUSDT }

/-- A class that has just started buffers the diff `100 … 109` and gets snapshot `105`, which the
diff bridges: the diff is taken for a loss, since the last id is still `0`. -/
theorem false_loss :
    Spot.machine.Legal {} [.diff (Spot.tenUpdates 100)] ∧
      BridgedBuffer (fun d d' => d'.firstUpdateId = d.finalUpdateId + 1)
        (Spot.machine.final {} [.diff (Spot.tenUpdates 100)])
        { updateId := 105, tradingPair := .kBTCUSDT } [] (Spot.tenUpdates 100) []
        (Spot.tenUpdates 110) ∧
      ¬ SyncsWith Spot.machine (Spot.machine.final {} [.diff (Spot.tenUpdates 100)])
        { updateId := 105, tradingPair := .kBTCUSDT } (Spot.tenUpdates 110)
        [Spot.tenUpdates 100, Spot.tenUpdates 110] := by
  refine ⟨by decide, ⟨by decide, by decide, rfl, by decide, by decide, by decide⟩, fun h => ?_⟩
  exact absurd h.processed (by decide)

/-- Started with the first diff of the exchange, both classes sync, here with a diff that is skipped
before the bridging one and another that is buffered behind it. -/
theorem progress_from_first :
    SyncsWith Spot.machine
        (Spot.machine.final {} [.diff (Spot.tenUpdates 1), .diff (Spot.tenUpdates 11),
          .diff (Spot.tenUpdates 21)])
        { updateId := 15, tradingPair := .kBTCUSDT } (Spot.tenUpdates 31)
        [Spot.tenUpdates 11, Spot.tenUpdates 21, Spot.tenUpdates 31] ∧
      SyncsWith Futures.machine
        (Futures.machine.final {} [.diff (Futures.tenUpdates 1), .diff (Futures.tenUpdates 11),
          .diff (Futures.tenUpdates 21)])
        { updateId := 15, tradingPair := .kBTCUSDT } (Futures.tenUpdates 31)
        [Futures.tenUpdates 11, Futures.tenUpdates 21, Futures.tenUpdates 31] :=
  ⟨(progress_iff.1 _ _ [Spot.tenUpdates 1] [Spot.tenUpdates 21] _ _ (by decide)
      ⟨by decide, by decide, rfl, by decide, by decide, by decide⟩).mpr (by decide),
    (progress_iff.2 _ _ [Futures.tenUpdates 1] [Futures.tenUpdates 21] _ _ (by decide)
      ⟨by decide, by decide, rfl, by decide, by decide, by decide⟩).mpr (by decide)⟩

end CryptobotAlgo.Aoe.Binance
