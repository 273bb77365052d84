import CryptobotAlgo.Aoe.Binance.OrderBookSync
import CryptobotAlgo.Feed.Grammar

/-!
# What the handlers of the Binance synchronisation do

The four flags encode a phase: a snapshot is needed, requested, waiting to be applied, or applied
(`SyncPhase`).  The loops have a specification each (`skipEarlierDiffs_spec`, `exists_drained`),
and the `processDiff_…` lemmas say what `ProcessDiff` does in each phase; every invariant is derived
from these.
-/

namespace CryptobotAlgo.Aoe.Binance

open Aos Feed

variable {Price Qty Diff : Type*}

/-! ### Calls -/

section Calls

variable (es fs : List (Effect Price Qty Diff)) (ds : List Diff)

@[simp] theorem calls_nil : calls ([] : List (Effect Price Qty Diff)) = [] := rfl

@[simp] theorem calls_cons_orderBook (c : Call (OrderBookSnapshotEvent Price Qty) Diff) :
    calls (.orderBook c :: es) = c :: calls es := rfl

@[simp] theorem calls_cons_request (pair : TradingPair) :
    calls (.requestNewSnapshot pair :: es) = calls es := rfl

theorem calls_append : calls (es ++ fs) = calls es ++ calls fs := List.filterMap_append

/-- Forwarding diffs makes exactly those calls and no request. -/
theorem calls_map_diff :
    calls (ds.map fun d => (.orderBook (.diff d) : Effect Price Qty Diff)) = ds.map .diff := by
  induction ds with
  | nil => rfl
  | cons d ds ih => rw [List.map_cons, calls_cons_orderBook, ih, List.map_cons]

theorem countP_isRequest_map_diff :
    (ds.map fun d => (.orderBook (.diff d) : Effect Price Qty Diff)).countP Effect.isRequest =
      0 := by
  induction ds with
  | nil => rfl
  | cons d ds ih => rw [List.map_cons, List.countP_cons_of_neg (by simp [Effect.isRequest]), ih]

end Calls

/-! ### The phases -/

/-- The phases of the synchronisation. -/
inductive SyncPhase
  /-- a snapshot has to be requested -/
  | needSnapshot
  /-- the request is unanswered -/
  | inFlight
  /-- the snapshot waits for the next diff -/
  | waiting
  /-- the snapshot is in the book -/
  | synced
  deriving DecidableEq, Repr

/-- Each phase raises its own flag and no other. -/
structure InPhase (s : OrderBookSync Price Qty Diff) (p : SyncPhase) : Prop where
  needMake : s.needMakeSnapshot = decide (p = .needSnapshot)
  inFlight : s.snapshotRequestInFlight = decide (p = .inFlight)
  needProcess : s.needProcessCurrentSnapshot = decide (p = .waiting)
  processed : s.snapshotWasProcessed = decide (p = .synced)

/-- Exactly one of the four flags is raised. -/
def ExactlyOneFlag (s : OrderBookSync Price Qty Diff) : Prop :=
  [s.needMakeSnapshot, s.snapshotRequestInFlight, s.needProcessCurrentSnapshot,
    s.snapshotWasProcessed].count true = 1

theorem InPhase.exactlyOneFlag {s : OrderBookSync Price Qty Diff} {p : SyncPhase}
    (h : InPhase s p) : ExactlyOneFlag s := by
  unfold ExactlyOneFlag
  rw [h.needMake, h.inFlight, h.needProcess, h.processed]
  cases p <;> rfl

/-! ### Chains of diffs -/

variable [OrderBookDiffEventInterface Diff]

/-- The last update id after the diffs `ds`. -/
def lastIdAfter (last : UInt64) (ds : List Diff) : UInt64 :=
  ds.foldl (fun _ d => finalUpdateId d) last

/-- No packet is lost before any of the diffs `ds`. -/
def Continues (checkPacketLost : UInt64 → Diff → Bool) : UInt64 → List Diff → Prop
  | _, [] => True
  | last, d :: ds =>
    checkPacketLost last d = false ∧ Continues checkPacketLost (finalUpdateId d) ds

@[simp] theorem lastIdAfter_nil (last : UInt64) : lastIdAfter last ([] : List Diff) = last := rfl

@[simp] theorem lastIdAfter_cons (last : UInt64) (d : Diff) (ds : List Diff) :
    lastIdAfter last (d :: ds) = lastIdAfter (finalUpdateId d) ds := rfl

theorem lastIdAfter_concat (last : UInt64) (ds : List Diff) (d : Diff) :
    lastIdAfter last (ds ++ [d]) = finalUpdateId d := by
  unfold lastIdAfter
  rw [List.foldl_append]
  rfl

@[simp] theorem continues_nil (checkPacketLost : UInt64 → Diff → Bool) (last : UInt64) :
    Continues checkPacketLost last [] := trivial

@[simp] theorem continues_cons (checkPacketLost : UInt64 → Diff → Bool) (last : UInt64) (d : Diff)
    (ds : List Diff) : Continues checkPacketLost last (d :: ds) ↔
      checkPacketLost last d = false ∧ Continues checkPacketLost (finalUpdateId d) ds := Iff.rfl

theorem continues_append (checkPacketLost : UInt64 → Diff → Bool) (last : UInt64)
    (ds ds' : List Diff) : Continues checkPacketLost last (ds ++ ds') ↔
      Continues checkPacketLost last ds ∧
        Continues checkPacketLost (lastIdAfter last ds) ds' := by
  induction ds generalizing last with
  | nil => simp
  | cons d ds ih =>
    rw [List.cons_append, continues_cons, ih, continues_cons, lastIdAfter_cons, and_assoc]

/-- Diffs that continue after `d` make a chain of calls on top of it. -/
theorem chainFrom_of_continues {checkPacketLost : UInt64 → Diff → Bool}
    {first : OrderBookSnapshotEvent Price Qty → Diff → Prop} {d : Diff} {ds : List Diff}
    (h : Continues checkPacketLost (finalUpdateId d) ds) :
    ChainFrom first (fun d d' => checkPacketLost (finalUpdateId d) d' = false) (.linked d)
      (ds.map .diff) := by
  induction ds generalizing d with
  | nil => trivial
  | cons d' ds ih => exact ⟨h.1, ih h.2⟩

/-- The diff contains the update right after the snapshot. -/
def BridgesSnapshot (e : OrderBookSnapshotEvent Price Qty) (d : Diff) : Prop :=
  firstUpdateId d ≤ e.updateId + 1 ∧ e.updateId + 1 ≤ finalUpdateId d

instance (e : OrderBookSnapshotEvent Price Qty) (d : Diff) : Decidable (BridgesSnapshot e d) :=
  inferInstanceAs (Decidable (_ ∧ _))

theorem bridges_iff (e : OrderBookSnapshotEvent Price Qty) (d : Diff) :
    OrderBookSync.bridges e.updateId d = true ↔ BridgesSnapshot e d := by
  unfold OrderBookSync.bridges BridgesSnapshot
  rw [Bool.and_eq_true, decide_eq_true_eq, decide_eq_true_eq]

/-! ### The two tests for a lost packet -/

theorem Spot.checkPacketLost_eq_false_iff (last : UInt64) (d : OrderBookDiffEvent Price Qty) :
    Spot.checkPacketLost last d = false ↔ d.firstUpdateId = last + 1 := by
  unfold Spot.checkPacketLost
  rw [bne_eq_false_iff_eq]

theorem Futures.checkPacketLost_eq_false_iff (last : UInt64)
    (d : Futures.OrderBookDiffEvent Price Qty) :
    Futures.checkPacketLost last d = false ↔ d.previousUpdateId = last := by
  unfold Futures.checkPacketLost
  rw [bne_eq_false_iff_eq]

/-! ### The loops -/

namespace OrderBookSync

/-- The skipping loop drops a prefix without a bridging diff, moves the last id over it, and stops
at a bridging diff or at the end. -/
theorem skipEarlierDiffs_spec (sid last : UInt64) (ds : List Diff) :
    ∃ pre, ds = pre ++ (skipEarlierDiffs sid last ds).2 ∧
      (skipEarlierDiffs sid last ds).1 = lastIdAfter last pre ∧
      (∀ d ∈ pre, bridges sid d = false) ∧
      ∀ d ∈ (skipEarlierDiffs sid last ds).2.head?, bridges sid d = true := by
  induction ds generalizing last with
  | nil => exact ⟨[], rfl, rfl, by simp, by simp [skipEarlierDiffs]⟩
  | cons d ds ih =>
    unfold skipEarlierDiffs
    split_ifs with hd
    · exact ⟨[], rfl, rfl, by simp, by simpa using hd⟩
    · -- `d` is skipped
      obtain ⟨pre, hds, hlast, hpre, hhead⟩ := ih (finalUpdateId d)
      refine ⟨d :: pre, by rw [List.cons_append, ← hds], hlast, ?_, hhead⟩
      intro x hx
      rcases List.mem_cons.mp hx with rfl | hx
      · simpa using hd
      · exact hpre x hx

/-- With a first bridging diff `d`, the loop drops exactly what is before it. -/
theorem skipEarlierDiffs_of_bridges {sid last : UInt64} {pre post : List Diff} {d : Diff}
    (hpre : ∀ x ∈ pre, bridges sid x = false) (hd : bridges sid d = true) :
    skipEarlierDiffs sid last (pre ++ d :: post) = (lastIdAfter last pre, d :: post) := by
  induction pre generalizing last with
  | nil => rw [List.nil_append, skipEarlierDiffs, if_pos hd, lastIdAfter_nil]
  | cons x pre ih =>
    have hx : ¬ bridges sid x = true := by rw [hpre x (List.mem_cons_self ..)]; simp
    rw [List.cons_append, skipEarlierDiffs, if_neg hx, lastIdAfter_cons,
      ih fun y hy => hpre y (List.mem_cons_of_mem _ hy)]

variable {checkPacketLost : UInt64 → Diff → Bool}

/-- What the draining loop does to a buffer `ds`: it forwards the prefix `fwd`, in which nothing is
lost, and empties the buffer.  The rest is dropped after a loss. -/
structure Drained (checkPacketLost : UInt64 → Diff → Bool) (s : OrderBookSync Price Qty Diff)
    (fwd rest : List Diff) (r : OrderBookSync Price Qty Diff × List (Effect Price Qty Diff)) :
    Prop where
  continues : Continues checkPacketLost s.lastDiffUpdateId fwd
  effects : r.2 = fwd.map fun d => .orderBook (.diff d)
  diffs : r.1.diffs = []
  lastId : r.1.lastDiffUpdateId = lastIdAfter s.lastDiffUpdateId fwd
  inFlight : r.1.snapshotRequestInFlight = s.snapshotRequestInFlight
  needProcess : r.1.needProcessCurrentSnapshot = s.needProcessCurrentSnapshot
  /-- without a loss the flags stay -/
  kept : rest = [] →
    r.1.needMakeSnapshot = s.needMakeSnapshot ∧ r.1.snapshotWasProcessed = s.snapshotWasProcessed
  /-- a loss asks for a new snapshot -/
  lost : ∀ d ∈ rest.head?, checkPacketLost (lastIdAfter s.lastDiffUpdateId fwd) d = true ∧
    r.1.needMakeSnapshot = true ∧ r.1.snapshotWasProcessed = false

theorem exists_drained (checkPacketLost : UInt64 → Diff → Bool) (s : OrderBookSync Price Qty Diff)
    (ds : List Diff) :
    ∃ fwd rest, ds = fwd ++ rest ∧
      Drained checkPacketLost s fwd rest (drainDiffs checkPacketLost s ds) := by
  induction ds generalizing s with
  | nil =>
    refine ⟨[], [], rfl, trivial, rfl, rfl, rfl, rfl, rfl, fun _ => ⟨rfl, rfl⟩, ?_⟩
    simp
  | cons d ds ih =>
    unfold drainDiffs
    split_ifs with hd
    · -- `d` is taken for a loss, and the rest of the buffer is dropped with it
      refine ⟨[], d :: ds, rfl, trivial, rfl, rfl, rfl, rfl, rfl, by simp, ?_⟩
      rintro x hx
      obtain rfl := Option.some.inj hx
      exact ⟨hd, rfl, rfl⟩
    · obtain ⟨fwd, rest, hds, h⟩ :=
        ih { s with diffPacketLost := false, lastDiffUpdateId := finalUpdateId d }
      have hd' : checkPacketLost s.lastDiffUpdateId d = false := by simpa using hd
      refine ⟨d :: fwd, rest, by rw [hds, List.cons_append], ⟨hd', h.continues⟩, ?_, h.diffs,
        h.lastId, h.inFlight, h.needProcess, h.kept, h.lost⟩
      dsimp only
      rw [h.effects, List.map_cons]

/-! ### `ProcessDiff`, phase by phase -/

variable {s : OrderBookSync Price Qty Diff}

theorem processDiff_needSnapshot (h : InPhase s .needSnapshot) (d : Diff) :
    s.processDiff checkPacketLost d =
      ({ s with
          diffs := s.diffs ++ [d], snapshotRequestInFlight := true, needMakeSnapshot := false },
        [.orderBook .clear, .requestNewSnapshot (tradingPair d)]) := by
  simp [processDiff, h.processed, h.needMake, h.inFlight]

theorem processDiff_inFlight (h : InPhase s .inFlight) (d : Diff) :
    s.processDiff checkPacketLost d = ({ s with diffs := s.diffs ++ [d] }, []) := by
  simp [processDiff, h.processed, h.needMake, h.inFlight]

/-- The state in which the last loop starts when the diff `d` meets a waiting snapshot. -/
def applied (s : OrderBookSync Price Qty Diff) (d : Diff) : OrderBookSync Price Qty Diff :=
  { s with
    diffs := s.diffs ++ [d]
    needProcessCurrentSnapshot := false
    snapshotWasProcessed := true }

theorem processDiff_waiting (h : InPhase s .waiting) {e : OrderBookSnapshotEvent Price Qty}
    (he : s.lastSnapshot = some e) (d : Diff) :
    s.processDiff checkPacketLost d =
      let r := drainDiffs checkPacketLost (s.applied d) (s.diffs ++ [d])
      (r.1, .orderBook (.snapshot e) :: r.2) := by
  simp [processDiff, applySnapshot, applied, h.processed, h.needMake, h.inFlight, h.needProcess,
    he]

theorem processDiff_synced_of_continues (h : InPhase s .synced) {d : Diff}
    (hd : checkPacketLost s.lastDiffUpdateId d = false) :
    s.processDiff checkPacketLost d =
      ({ s with lastDiffUpdateId := finalUpdateId d }, [.orderBook (.diff d)]) := by
  simp [processDiff, h.processed, hd]

theorem processDiff_synced_of_lost (h : InPhase s .synced) (hdiffs : s.diffs = []) {d : Diff}
    (hd : checkPacketLost s.lastDiffUpdateId d = true) :
    s.processDiff checkPacketLost d =
      ({ s with
          diffPacketLost := true
          needMakeSnapshot := true
          snapshotWasProcessed := false
          diffs := [] }, []) := by
  simp [processDiff, applySnapshot, drainDiffs, h.processed, h.needMake, h.inFlight, h.needProcess,
    hd, hdiffs]

end OrderBookSync

end CryptobotAlgo.Aoe.Binance
