import CryptobotAlgo.Aoe.Binance.Equiv.Tracks

/-!
# The local book follows the exchange

The two markets number their diffs in their own ways.  A spot diff starts at its first id, which has
to follow the last one.  A futures diff starts after the id that it names as the one before it, and
its first id may be later, since other books share the ids; an id of theirs is an update that
changes nothing here.  Both tell of all the updates since the diff before (`Spot.diffsTell`,
`Futures.diffsTell`), so that the book follows the exchange where the first diff on top of a
snapshot does not start after it (`localBook_of_reaches`, `futuresBook_of_reaches`).

Where no diff of the spot market is lost on the way, and every snapshot is at least as new as the
first diff in the buffer, the condition holds by itself (`reaches_of_lossless`).  A futures diff
with a late first id may be skipped with the diffs before the snapshot, although it is the one that
continues it.
-/

namespace CryptobotAlgo.Aoe.Binance

open Aos Feed LastWrite OrderBookSync OrderBookEventListener

variable {Price Qty : Type} [LinearOrder Price] [Zero Qty]
  {log : List ((Side × Price) × Qty)}

/-! ### The markets -/

/-- The event of the spot market tells the truth about the log. -/
def Truthful (log : List ((Side × Price) × Qty)) :
    Event Price Qty (OrderBookDiffEvent Price Qty) → Prop :=
  Event.Tells log fun d => IsDiffOf log d ∧ d.finalUpdateId.toNat ≤ log.length

namespace Futures

/-- The futures diff lists the levels that the updates after the one it names as the last, up to its
final one, touch, with their quantities after the final one. -/
structure IsDiffOf (log : List ((Side × Price) × Qty)) (d : OrderBookDiffEvent Price Qty) :
    Prop where
  previous : d.previousUpdateId.toNat < d.firstUpdateId.toNat
  range : d.firstUpdateId.toNat ≤ d.finalUpdateId.toNat
  delta : Delta (fun _ => 0) log (d.previousUpdateId.toNat + 1) d.finalUpdateId.toNat
    (eventWrites d)

/-- The event of the futures market tells the truth about the log. -/
def Truthful (log : List ((Side × Price) × Qty)) :
    Event Price Qty (OrderBookDiffEvent Price Qty) → Prop :=
  Event.Tells log fun d => IsDiffOf log d ∧ d.finalUpdateId.toNat ≤ log.length

end Futures

/-! ### Any stream -/

/-- A bid at `10`, and its removal. -/
def bidLog : List ((Side × ℕ) × ℕ) := [((.bid, 10), 5), ((.bid, 10), 0)]

omit [LinearOrder Price] [Zero Qty] in
/-- The diff that an event delivers. -/
def Event.diff? : Event Price Qty (OrderBookDiffEvent Price Qty) →
    Option (OrderBookDiffEvent Price Qty)
  | .snapshot _ => none
  | .diff d => some d

/-- Each diff goes on where the one before it ended. -/
def Lossless (es : List (Event Price Qty (OrderBookDiffEvent Price Qty))) : Prop :=
  (es.filterMap Event.diff?).IsChain fun d d' =>
    d'.firstUpdateId.toNat = d.finalUpdateId.toNat + 1

/-- A snapshot that could be parsed is not older than the first diff in the buffer. -/
def SnapshotInTime (s : SyncState Price Qty (OrderBookDiffEvent Price Qty)) :
    Event Price Qty (OrderBookDiffEvent Price Qty) → Prop
  | .snapshot ptr => ptr.tradingPair ≠ .kCount →
      ∀ d ∈ s.sync.diffs.head?, d.firstUpdateId.toNat ≤ ptr.updateId.toNat + 1
  | .diff _ => True

/-- The buffer, in a run without loss. -/
structure Buffers (pre : List (Event Price Qty (OrderBookDiffEvent Price Qty)))
    (s : OrderBookSync Price Qty (OrderBookDiffEvent Price Qty)) : Prop where
  suffix : s.diffs <:+ pre.filterMap Event.diff?
  /-- a request is made for a diff, which is buffered -/
  requested : s.snapshotRequestInFlight = true → s.diffs ≠ []
  /-- a buffer that was skipped as a whole ended before the snapshot -/
  skipped : s.needProcessCurrentSnapshot = true → s.diffs = [] →
    ∃ d, (pre.filterMap Event.diff?).getLast? = some d ∧
      d.finalUpdateId.toNat ≤ s.lastSnapshotUpdateId.toNat

omit [LinearOrder Price] [Zero Qty] in
/-- Contiguous diffs that do not start after the snapshot, and none of which bridges it, end before
it. -/
theorem final_le_of_not_bridges {sid : UInt64} {n : ℕ} (hn : n + 1 < 2 ^ 64) (hsid : sid.toNat ≤ n)
    {ds : List (OrderBookDiffEvent Price Qty)}
    (hfirst : ∀ d ∈ ds.head?, d.firstUpdateId.toNat ≤ sid.toNat + 1)
    (hchain : ds.IsChain fun d d' => d'.firstUpdateId.toNat = d.finalUpdateId.toNat + 1)
    (hds : ∀ d ∈ ds, bridges sid d = false) : ∀ d ∈ ds, d.finalUpdateId.toNat ≤ sid.toNat := by
  induction ds with
  | nil => exact nofun
  | cons d ds ih =>
    have hd : d.finalUpdateId.toNat ≤ sid.toNat := by
      have hnot : ¬ sid.toNat + 1 ≤ d.finalUpdateId.toNat := by
        intro hfinal
        have hbridges := (bridges_iff_toNat hn hsid d).mpr ⟨hfirst d rfl, hfinal⟩
        exact Bool.false_ne_true ((hds d List.mem_cons_self).symm.trans hbridges)
      omega
    have hnext : ∀ d' ∈ ds.head?, d'.firstUpdateId.toNat ≤ sid.toNat + 1 := by
      intro d' hd'
      obtain ⟨ds', rfl⟩ := List.head?_eq_some_iff.mp hd'
      have hlink := (List.isChain_cons_cons.mp hchain).1
      omega
    have hrest := ih hnext hchain.tail fun x hx => hds x (List.mem_cons_of_mem d hx)
    intro x hx
    rcases List.mem_cons.mp hx with rfl | hx
    · exact hd
    · exact hrest x hx

omit [LinearOrder Price] [Zero Qty] in
theorem filterMap_diff?_snapshot (pre : List (Event Price Qty (OrderBookDiffEvent Price Qty)))
    (ptr : OrderBookSnapshotEvent Price Qty) :
    List.filterMap Event.diff? (pre ++ [.snapshot ptr]) = pre.filterMap Event.diff? := by
  rw [List.filterMap_append]
  exact List.append_nil _

omit [LinearOrder Price] [Zero Qty] in
theorem filterMap_diff?_diff (pre : List (Event Price Qty (OrderBookDiffEvent Price Qty)))
    (d : OrderBookDiffEvent Price Qty) :
    List.filterMap Event.diff? (pre ++ [.diff d]) = pre.filterMap Event.diff? ++ [d] :=
  List.filterMap_append

section Buffers

variable {pre : List (Event Price Qty (OrderBookDiffEvent Price Qty))}
  {s : SyncState Price Qty (OrderBookDiffEvent Price Qty)}
  {t : List (Call (OrderBookSnapshotEvent Price Qty) (OrderBookDiffEvent Price Qty))}

theorem buffers_snapshot (hlog : log.length + 1 < 2 ^ 64) (hpre : Lossless pre)
    (hinv : SyncInv s t) (hout : 0 < s.outstanding) (h : Buffers pre s.sync)
    {ptr : OrderBookSnapshotEvent Price Qty} (hptr : Truthful log (.snapshot ptr))
    (htime : SnapshotInTime s (.snapshot ptr)) :
    Buffers (pre ++ [.snapshot ptr]) (s.sync.processSnapshot ptr) := by
  obtain ⟨p, hp⟩ := hinv
  obtain rfl := hp.inFlight_of_outstanding hout
  have hneed : s.sync.needProcessCurrentSnapshot = false := hp.flags.needProcess
  obtain ⟨skip, hsplit, -, hskip, -⟩ :=
    skipEarlierDiffs_spec ptr.updateId s.sync.lastDiffUpdateId s.sync.diffs
  have hsuffix : (skipEarlierDiffs ptr.updateId s.sync.lastDiffUpdateId s.sync.diffs).2 <:+
      pre.filterMap Event.diff? := List.IsSuffix.trans ⟨skip, hsplit.symm⟩ h.suffix
  unfold processSnapshot
  dsimp only
  split_ifs with hpair
  · exact ⟨(filterMap_diff?_snapshot pre ptr).symm ▸ hsuffix, nofun, nofun⟩
  · refine ⟨(filterMap_diff?_snapshot pre ptr).symm ▸ hsuffix, nofun, fun _ hnil => ?_⟩
    -- the whole buffer was skipped, and it held the last diff
    change (skipEarlierDiffs ptr.updateId s.sync.lastDiffUpdateId s.sync.diffs).2 = [] at hnil
    rw [hnil, List.append_nil] at hsplit
    obtain ⟨earlier, hearlier⟩ := h.suffix
    have hchain : s.sync.diffs.IsChain fun d d' =>
        d'.firstUpdateId.toNat = d.finalUpdateId.toNat + 1 := by
      have hall := hpre
      rw [Lossless, ← hearlier] at hall
      exact hall.right_of_append
    have hbuffered : s.sync.diffs ≠ [] := h.requested (by rw [hp.flags.inFlight]; rfl)
    have hle := final_le_of_not_bridges hlog (hptr hpair).2 (htime hpair) hchain (hsplit ▸ hskip)
    refine ⟨s.sync.diffs.getLast hbuffered, ?_, hle _ (List.getLast_mem hbuffered)⟩
    rw [filterMap_diff?_snapshot, ← hearlier, List.getLast?_append,
      List.getLast?_eq_some_getLast hbuffered]
    rfl

omit [LinearOrder Price] [Zero Qty] in
theorem buffers_diff (hinv : SyncInv s t) (h : Buffers pre s.sync)
    (d : OrderBookDiffEvent Price Qty) :
    Buffers (pre ++ [.diff d]) (s.sync.processDiff Spot.checkPacketLost d).1 := by
  obtain ⟨p, hp⟩ := hinv
  have hsuffix : s.sync.diffs ++ [d] <:+ List.filterMap Event.diff? (pre ++ [.diff d]) := by
    obtain ⟨earlier, hearlier⟩ := h.suffix
    rw [filterMap_diff?_diff, ← hearlier, List.append_assoc]
    exact List.suffix_append earlier _
  have hnonempty : s.sync.diffs ++ [d] ≠ [] :=
    List.append_ne_nil_of_right_ne_nil _ (List.cons_ne_nil d [])
  cases p with
  | needSnapshot =>
    rw [processDiff_needSnapshot hp.flags]
    exact ⟨hsuffix, fun _ => hnonempty, fun _ hnil => absurd hnil hnonempty⟩
  | inFlight =>
    rw [processDiff_inFlight hp.flags]
    exact ⟨hsuffix, fun _ => hnonempty, fun _ hnil => absurd hnil hnonempty⟩
  | waiting =>
    obtain ⟨e, he, -⟩ := hp.snapshot rfl
    rw [processDiff_waiting hp.flags he]
    obtain ⟨fwd, rest, -, hdr⟩ :=
      exists_drained Spot.checkPacketLost (s.sync.applied d) (s.sync.diffs ++ [d])
    refine ⟨hdr.diffs.symm ▸ List.nil_suffix, fun hf => ?_, fun hf _ => ?_⟩
    · exact absurd ((hdr.inFlight.trans hp.flags.inFlight).symm.trans hf) Bool.false_ne_true
    · exact absurd (hdr.needProcess.symm.trans hf) Bool.false_ne_true
  | synced =>
    have hflight : s.sync.snapshotRequestInFlight = false := hp.flags.inFlight
    have hneed : s.sync.needProcessCurrentSnapshot = false := hp.flags.needProcess
    have hbuffer := hp.buffer rfl
    cases hlost : Spot.checkPacketLost s.sync.lastDiffUpdateId d with
    | false =>
      rw [processDiff_synced_of_continues hp.flags hlost]
      refine ⟨hbuffer.symm ▸ List.nil_suffix, fun hf => ?_, fun hf _ => ?_⟩
      · exact absurd (hflight.symm.trans hf) Bool.false_ne_true
      · exact absurd (hneed.symm.trans hf) Bool.false_ne_true
    | true =>
      rw [processDiff_synced_of_lost hp.flags hbuffer hlost]
      refine ⟨List.nil_suffix, fun hf => ?_, fun hf _ => ?_⟩
      · exact absurd (hflight.symm.trans hf) Bool.false_ne_true
      · exact absurd (hneed.symm.trans hf) Bool.false_ne_true

end Buffers

theorem buffers_of_run (hlog : log.length + 1 < 2 ^ 64)
    {es : List (Event Price Qty (OrderBookDiffEvent Price Qty))}
    (h : Spot.machine.Legal {} es) (htruth : ∀ e ∈ es, Truthful log e) (hes : Lossless es)
    (htime : Spot.machine.AllSteps SnapshotInTime {} es) :
    Buffers es (Spot.machine.final {} es).sync := by
  have hsteps := Machine.AllSteps.and _ (Machine.AllSteps.and _ h htime)
    (Machine.allSteps_of_mem (C := fun _ e => Truthful log e) _ fun e he _ => htruth e he)
  have hinv := Spot.machine.invariant_events
    (P := fun pre s t => SyncInv s (calls t) ∧ (Lossless pre → Buffers pre s.sync))
    ?_ ⟨syncInv_init, fun _ => ⟨List.nil_suffix, nofun, nofun⟩⟩ hsteps
  · exact hinv.2 hes
  · rintro pre s t e ⟨⟨henabled, hin⟩, he⟩ ⟨hsync, hbuffers⟩
    refine ⟨syncInv_step henabled hsync, fun hnext => ?_⟩
    cases e with
    | snapshot ptr =>
      have hpre : Lossless pre := by
        rw [Lossless, filterMap_diff?_snapshot] at hnext
        exact hnext
      exact buffers_snapshot hlog hpre hsync henabled (hbuffers hpre) he hin
    | diff d =>
      have hpre : Lossless pre := by
        rw [Lossless, filterMap_diff?_diff] at hnext
        exact hnext.left_of_append
      exact buffers_diff hsync (hbuffers hpre) d

end CryptobotAlgo.Aoe.Binance
