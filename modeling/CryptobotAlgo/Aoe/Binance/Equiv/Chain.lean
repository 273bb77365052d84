import CryptobotAlgo.Aoe.Binance.Equiv.Phase

/-!
# The chain of forwarded diffs

The diffs that reach the order book after a snapshot should continue it without a gap.  The
handlers ensure this except in one place: when `ProcessSnapshot` has skipped the whole buffer, the
next diff is only compared with the last skipped one, and is forwarded on top of the snapshot even
if it does not contain the update after it.  `FirstDiffBridges` is the condition on a step that
rules this out, and a run has no gap exactly when every step meets it (`chainFrom_iff`,
`spot_gapless_iff`, `futures_gapless_iff`).

Ids are `uint64_t`, so `+ 1` is addition modulo `2^64`, as in the source.
-/

namespace CryptobotAlgo.Aoe.Binance

open Aos Feed OrderBookSync

variable {Price Qty : Type*}

section Generic

variable {Diff : Type*} [OrderBookDiffEventInterface Diff] {checkPacketLost : UInt64 → Diff → Bool}

/-- A diff that meets a waiting snapshot and an empty buffer, and that continues the last diff
skipped, bridges the snapshot. -/
def FirstDiffBridges (checkPacketLost : UInt64 → Diff → Bool) (s : SyncState Price Qty Diff) :
    Event Price Qty Diff → Prop
  | .snapshot _ => True
  | .diff d => s.sync.needProcessCurrentSnapshot = true → s.sync.diffs = [] →
      checkPacketLost s.sync.lastDiffUpdateId d = false →
      bridges s.sync.lastSnapshotUpdateId d = true

instance (s : SyncState Price Qty Diff) (e : Event Price Qty Diff) :
    Decidable (FirstDiffBridges checkPacketLost s e) :=
  match e with
  | .snapshot _ => inferInstanceAs (Decidable True)
  | .diff _ => inferInstanceAs (Decidable (_ → _ → _ → _))

/-- The call sequence has no gap, for the class's own test of a loss. -/
def Chained (checkPacketLost : UInt64 → Diff → Bool)
    (t : List (Call (OrderBookSnapshotEvent Price Qty) Diff)) : Prop :=
  ChainFrom BridgesSnapshot (fun d d' => checkPacketLost (finalUpdateId d) d' = false) .closed t

/-! ### Steps that meet the condition keep the chain -/

theorem chained_diff {s : SyncState Price Qty Diff}
    {t : List (Call (OrderBookSnapshotEvent Price Qty) Diff)} (hinv : SyncInv s t)
    (ht : Chained checkPacketLost t) {d : Diff}
    (hd : FirstDiffBridges checkPacketLost s (.diff d)) :
    Chained checkPacketLost (t ++ calls (s.sync.processDiff checkPacketLost d).2) := by
  obtain ⟨p, hp⟩ := hinv
  refine (chainFrom_append _ _ _).mpr ⟨ht, ?_⟩
  cases p with
  | needSnapshot =>
    rw [processDiff_needSnapshot hp.flags]
    exact ⟨Link.admits_clear _, trivial⟩
  | inFlight =>
    rw [processDiff_inFlight hp.flags]
    trivial
  | waiting =>
    -- the snapshot opens a chain, and the forwarded part of the buffer extends it
    obtain ⟨e, he, hid⟩ := hp.snapshot rfl
    rw [processDiff_waiting hp.flags he]
    dsimp only
    obtain ⟨fwd, rest, hsplit, hdr⟩ :=
      exists_drained checkPacketLost (s.sync.applied d) (s.sync.diffs ++ [d])
    rw [hdr.effects, calls_cons_orderBook, calls_map_diff]
    refine ⟨Link.admits_snapshot _ _, ?_⟩
    rw [Link.after_snapshot]
    cases fwd with
    | nil => trivial
    | cons x fwd =>
      obtain ⟨hx, hcont⟩ := hdr.continues
      refine ⟨(bridges_iff e x).mp ?_, chainFrom_of_continues hcont⟩
      -- the first diff forwarded is the front of the buffer, or `d` itself
      rw [hid]
      cases hbuf : s.sync.diffs with
      | nil =>
        rw [hbuf] at hsplit
        obtain rfl : d = x := (List.cons.inj hsplit).1
        have hneed : s.sync.needProcessCurrentSnapshot = true := by rw [hp.flags.needProcess]; rfl
        exact hd hneed hbuf hx
      | cons y ys =>
        rw [hbuf] at hsplit
        obtain rfl : y = x := (List.cons.inj hsplit).1
        exact hp.front rfl y (by rw [hbuf]; rfl)
  | synced =>
    cases hlost : checkPacketLost s.sync.lastDiffUpdateId d with
    | false =>
      -- the last id is that of the end of the chain, so the class's test is the link
      rw [processDiff_synced_of_continues hp.flags hlost]
      obtain ⟨d₀, hd₀, hlast⟩ := hp.link rfl
      rw [hd₀]
      rw [hlast] at hlost
      exact ⟨hlost, trivial⟩
    | true =>
      rw [processDiff_synced_of_lost hp.flags (hp.buffer rfl) hlost]
      trivial

theorem chained_step {s : SyncState Price Qty Diff} {t : List (Effect Price Qty Diff)}
    {e : Event Price Qty Diff} (hinv : SyncInv s (calls t))
    (ht : Chained checkPacketLost (calls t)) (he : FirstDiffBridges checkPacketLost s e) :
    Chained checkPacketLost (calls (t ++ ((syncMachine checkPacketLost).step s e).2)) := by
  rw [calls_append]
  cases e with
  | snapshot ptr =>
    show Chained _ (calls t ++ calls [])
    rwa [calls_nil, List.append_nil]
  | diff d => exact chained_diff hinv ht he

/-! ### A step that breaks the condition breaks the chain -/

/-- Where the condition fails, the snapshot is forwarded with the diff on top. -/
theorem calls_of_not_firstDiffBridges {s : SyncState Price Qty Diff}
    {t : List (Call (OrderBookSnapshotEvent Price Qty) Diff)} (hinv : SyncInv s t)
    {e : Event Price Qty Diff} (he : ¬ FirstDiffBridges checkPacketLost s e) :
    ∃ snapshot d, calls ((syncMachine checkPacketLost).step s e).2 = [.snapshot snapshot, .diff d] ∧
      ¬ BridgesSnapshot snapshot d := by
  cases e with
  | snapshot ptr => exact absurd trivial he
  | diff d =>
    simp only [FirstDiffBridges, Classical.not_imp] at he
    obtain ⟨hneed, hbuf, hlost, hbridge⟩ := he
    obtain ⟨p, hp⟩ := hinv
    have hwait : p = .waiting := by
      rw [hp.flags.needProcess] at hneed
      exact of_decide_eq_true hneed
    subst hwait
    obtain ⟨snapshot, hs, hid⟩ := hp.snapshot rfl
    refine ⟨snapshot, d, ?_, fun h => hbridge ?_⟩
    · show calls (s.sync.processDiff checkPacketLost d).2 = _
      rw [processDiff_waiting hp.flags hs]
      simp [hbuf, drainDiffs, applied, hlost]
    · rw [← hid]
      exact (bridges_iff snapshot d).mpr h

theorem not_chained_step {s : SyncState Price Qty Diff} {t : List (Effect Price Qty Diff)}
    {e : Event Price Qty Diff} (hinv : SyncInv s (calls t))
    (he : ¬ FirstDiffBridges checkPacketLost s e) :
    ¬ Chained checkPacketLost (calls (t ++ ((syncMachine checkPacketLost).step s e).2)) := by
  obtain ⟨snapshot, d, hcalls, hbridge⟩ := calls_of_not_firstDiffBridges hinv he
  rw [calls_append, hcalls]
  intro h
  obtain ⟨-, hlast⟩ := (chainFrom_append _ _ _).mp h
  rw [chainFrom_cons, Link.after_snapshot] at hlast
  exact hbridge hlast.2.1

/-! ### Runs -/

/-- A legal run has no gap exactly when every step of it meets the condition. -/
theorem chainFrom_iff {es : List (Event Price Qty Diff)}
    (h : (syncMachine checkPacketLost).Legal {} es) :
    Chained checkPacketLost (calls ((syncMachine checkPacketLost).trace {} es)) ↔
      (syncMachine checkPacketLost).AllSteps (FirstDiffBridges checkPacketLost) {} es := by
  set M : Machine (SyncState Price Qty Diff) (Event Price Qty Diff) (Effect Price Qty Diff) :=
    syncMachine checkPacketLost with hM
  constructor
  · -- the chain breaks at the first bad step, and later calls cannot mend it
    intro hchain
    by_contra hbad
    obtain ⟨pre, e, post, rfl, -, he⟩ := M.exists_first_bad hbad
    have hpre : M.Legal {} pre := ((M.allSteps_append _ _ _ _).mp h).1
    rw [M.trace_append, M.trace_cons, ← List.append_assoc, calls_append] at hchain
    exact not_chained_step (syncInv_of_legal hpre) he ((chainFrom_append _ _ _).mp hchain).1
  · intro hsteps
    have hboth := Machine.AllSteps.and M h hsteps
    have hinv := M.invariant
      (P := fun s t => SyncInv s (calls t) ∧ Chained checkPacketLost (calls t))
      (fun s t e he hP => ⟨syncInv_step he.1 hP.1, chained_step hP.1 hP.2 he.2⟩)
      ⟨syncInv_init, trivial⟩ hboth
    exact hinv.2

/-- For a legal run, up to the next `Clear` is up to the next call that is not a diff. -/
theorem gapless_iff_chained {es : List (Event Price Qty Diff)}
    (h : (syncMachine checkPacketLost).Legal {} es) :
    Gapless (· ≠ .clear) BridgesSnapshot (fun d d' => checkPacketLost (finalUpdateId d) d' = false)
        (calls ((syncMachine checkPacketLost).trace {} es)) ↔
      Chained checkPacketLost (calls ((syncMachine checkPacketLost).trace {} es)) := by
  rw [Chained, ← gapless_isDiff_iff]
  constructor
  · refine Gapless.mono fun c hc hclear => ?_
    subst hclear
    exact Call.not_isDiff_clear hc
  · exact (syncInv_of_legal h).wellPhased.snapshotsCleared.gapless

end Generic

/-! ### Spot -/

/-- **The spot chain**: in a legal run the diffs forwarded after a snapshot, up to the next
`Clear`, start with one that bridges it and go on without a gap, exactly when no step applies a
waiting snapshot to a diff that does not bridge it. -/
theorem spot_gapless_iff (es : List (Event Price Qty (OrderBookDiffEvent Price Qty)))
    (h : Spot.machine.Legal {} es) :
    Gapless (· ≠ .clear) BridgesSnapshot (fun d d' => d'.firstUpdateId = d.finalUpdateId + 1)
        (calls (Spot.machine.trace {} es)) ↔
      Spot.machine.AllSteps (FirstDiffBridges Spot.checkPacketLost) {} es := by
  rw [Spot.machine, ← chainFrom_iff h, ← gapless_iff_chained h]
  simp only [Spot.checkPacketLost_eq_false_iff]
  rfl

/-- A run that buffers a diff past the snapshot, so that all of the buffer is skipped: the next
diff, `first … last`, is compared with the skipped one. -/
def Spot.skippedRun (first last : UInt64) : List (Event ℕ ℕ (OrderBookDiffEvent ℕ ℕ)) :=
  [.diff { firstUpdateId := 20, finalUpdateId := 25, tradingPair := .kBTCUSDT },
    .snapshot { updateId := 10, tradingPair := .kBTCUSDT },
    .diff { firstUpdateId := first, finalUpdateId := last, tradingPair := .kBTCUSDT }]

/-- The diff `26 … 30` is forwarded on top of snapshot `10`: the updates `11 … 25` are missing. -/
theorem spot_gap :
    Spot.machine.Legal {} (Spot.skippedRun 26 30) ∧
      ¬ Gapless (· ≠ .clear) BridgesSnapshot (fun d d' => d'.firstUpdateId = d.finalUpdateId + 1)
        (calls (Spot.machine.trace {} (Spot.skippedRun 26 30))) := by
  refine ⟨by decide, fun h => ?_⟩
  have hfirst := h [.clear] { updateId := 10, tradingPair := .kBTCUSDT }
    [.diff { firstUpdateId := 26, finalUpdateId := 30, tradingPair := .kBTCUSDT }] [] (by decide)
    (by decide)
  exact absurd hfirst.1 (by decide)

/-- A diff of the updates `first … last`. -/
def Spot.updates (first last : UInt64) : OrderBookDiffEvent ℕ ℕ :=
  { firstUpdateId := first, finalUpdateId := last, tradingPair := .kBTCUSDT }

/-- A run from the first update on, with a loss: `13 … 14` is not in it.  The diff after the loss is
buffered, and the second snapshot is bridged by the one behind it. -/
def Spot.lossyRun : List (Event ℕ ℕ (OrderBookDiffEvent ℕ ℕ)) :=
  [.diff (Spot.updates 1 5), .snapshot { updateId := 3, tradingPair := .kBTCUSDT },
    .diff (Spot.updates 6 9), .diff (Spot.updates 10 12), .diff (Spot.updates 15 16),
    .diff (Spot.updates 17 19), .diff (Spot.updates 20 22),
    .snapshot { updateId := 20, tradingPair := .kBTCUSDT }, .diff (Spot.updates 23 24)]

/-- After the first snapshot three diffs are forwarded, after the second one two. -/
theorem spot_gapless_lossyRun :
    calls (Spot.machine.trace {} Spot.lossyRun) =
      [.clear, .snapshot { updateId := 3, tradingPair := .kBTCUSDT }, .diff (Spot.updates 1 5),
        .diff (Spot.updates 6 9), .diff (Spot.updates 10 12), .clear,
        .snapshot { updateId := 20, tradingPair := .kBTCUSDT }, .diff (Spot.updates 20 22),
        .diff (Spot.updates 23 24)] ∧
    Gapless (· ≠ .clear) BridgesSnapshot (fun d d' => d'.firstUpdateId = d.finalUpdateId + 1)
      (calls (Spot.machine.trace {} Spot.lossyRun)) :=
  ⟨by decide, (spot_gapless_iff Spot.lossyRun (by decide)).mpr (by decide)⟩

/-! ### Futures -/

/-- **The futures chain**: the same with the futures link, the previous id of a diff. -/
theorem futures_gapless_iff (es : List (Event Price Qty (Futures.OrderBookDiffEvent Price Qty)))
    (h : Futures.machine.Legal {} es) :
    Gapless (· ≠ .clear) BridgesSnapshot (fun d d' => d'.previousUpdateId = d.finalUpdateId)
        (calls (Futures.machine.trace {} es)) ↔
      Futures.machine.AllSteps (FirstDiffBridges Futures.checkPacketLost) {} es := by
  rw [Futures.machine, ← chainFrom_iff h, ← gapless_iff_chained h]
  simp only [Futures.checkPacketLost_eq_false_iff]
  rfl

/-- The spot run again; the last diff names `previous` as the one before it. -/
def Futures.skippedRun (previous : UInt64) : List (Event ℕ ℕ (Futures.OrderBookDiffEvent ℕ ℕ)) :=
  [.diff { firstUpdateId := 20, finalUpdateId := 25, previousUpdateId := 19,
           tradingPair := .kBTCUSDT },
    .snapshot { updateId := 10, tradingPair := .kBTCUSDT },
    .diff { firstUpdateId := 26, finalUpdateId := 30, previousUpdateId := previous,
            tradingPair := .kBTCUSDT }]

/-- The diff after `25` is forwarded on top of snapshot `10`. -/
theorem futures_gap :
    Futures.machine.Legal {} (Futures.skippedRun 25) ∧
      ¬ Gapless (· ≠ .clear) BridgesSnapshot (fun d d' => d'.previousUpdateId = d.finalUpdateId)
        (calls (Futures.machine.trace {} (Futures.skippedRun 25))) := by
  refine ⟨by decide, fun h => ?_⟩
  have hfirst := h [.clear] { updateId := 10, tradingPair := .kBTCUSDT }
    [.diff { firstUpdateId := 26, finalUpdateId := 30, previousUpdateId := 25,
             tradingPair := .kBTCUSDT }] [] (by decide) (by decide)
  exact absurd hfirst.1 (by decide)

/-- A diff of the updates `first … last`, which names `previous` as the one before them. -/
def Futures.updates (previous first last : UInt64) : Futures.OrderBookDiffEvent ℕ ℕ :=
  { previousUpdateId := previous, firstUpdateId := first, finalUpdateId := last,
    tradingPair := .kBTCUSDT }

/-- The same with diffs whose first ids leave room for the updates of other books. -/
def Futures.lossyRun : List (Event ℕ ℕ (Futures.OrderBookDiffEvent ℕ ℕ)) :=
  [.diff (Futures.updates 0 2 5), .snapshot { updateId := 3, tradingPair := .kBTCUSDT },
    .diff (Futures.updates 5 7 9), .diff (Futures.updates 9 10 12),
    .diff (Futures.updates 14 15 16), .diff (Futures.updates 16 17 19),
    .diff (Futures.updates 19 21 22), .snapshot { updateId := 20, tradingPair := .kBTCUSDT },
    .diff (Futures.updates 22 24 24)]

/-- After the first snapshot three diffs are forwarded, after the second one two. -/
theorem futures_gapless_lossyRun :
    calls (Futures.machine.trace {} Futures.lossyRun) =
      [.clear, .snapshot { updateId := 3, tradingPair := .kBTCUSDT },
        .diff (Futures.updates 0 2 5), .diff (Futures.updates 5 7 9),
        .diff (Futures.updates 9 10 12), .clear,
        .snapshot { updateId := 20, tradingPair := .kBTCUSDT }, .diff (Futures.updates 19 21 22),
        .diff (Futures.updates 22 24 24)] ∧
    Gapless (· ≠ .clear) BridgesSnapshot (fun d d' => d'.previousUpdateId = d.finalUpdateId)
      (calls (Futures.machine.trace {} Futures.lossyRun)) :=
  ⟨by decide, (futures_gapless_iff Futures.lossyRun (by decide)).mpr (by decide)⟩

end CryptobotAlgo.Aoe.Binance
