import CryptobotAlgo.Aoe.Binance.Equiv.OrderBookSync
import CryptobotAlgo.Aos.Equiv.OrderBook

/-!
# Replaying an exchange log through the local book

The exchange numbers absolute updates of its book, each of one side and price.  A snapshot and a
chain of diffs describe parts of that log; applied to an empty book they rebuild the exchange's
book, although the first diff may reach back before the snapshot (`replay_correct`).  The reason
is that the values are absolute: `LastWrite.writes_delta`.
-/

namespace CryptobotAlgo.Aoe.Binance

open Aos Feed LastWrite

variable {Price Qty Diff : Type} [LinearOrder Price] [DecidableEq Qty] [Zero Qty]
  [OrderBookDiffEventInterface Diff] [OrderBookEventInterface Diff Price Qty]

/-- The exchange's book after the first `n` updates of its log; `0` means no level. -/
def exchangeBook (log : List ((Side × Price) × Qty)) (n : ℕ) : Side × Price → Qty :=
  after (fun _ => 0) log n

omit [LinearOrder Price] [DecidableEq Qty] [Zero Qty] in
/-- The chain of the diffs on top of the snapshot, with ids as numbers. -/
def ChainOn (snapshot : OrderBookSnapshotEvent Price Qty) (diffs : List Diff) : Prop :=
  Linked
    (fun s d => (firstUpdateId d).toNat ≤ s.updateId.toNat + 1 ∧
      s.updateId.toNat + 1 ≤ (finalUpdateId d).toNat)
    (fun d d' => (firstUpdateId d').toNat = (finalUpdateId d).toNat + 1) snapshot diffs

/-- The snapshot lists the levels of the exchange's book after update `updateId`. -/
def IsSnapshotOf (log : List ((Side × Price) × Qty)) (snapshot : OrderBookSnapshotEvent Price Qty) :
    Prop :=
  Full (fun _ => 0) log snapshot.updateId.toNat (eventWrites snapshot)

/-- The diff lists the levels that the updates from its first to its final one touch, with their
quantities after the final one. -/
structure IsDiffOf (log : List ((Side × Price) × Qty)) (diff : Diff) : Prop where
  range : (firstUpdateId diff).toNat ≤ (finalUpdateId diff).toNat
  delta : Delta (fun _ => 0) log (firstUpdateId diff).toNat (finalUpdateId diff).toNat
    (eventWrites diff)

variable {log : List ((Side × Price) × Qty)} {l : OrderBookEventListener Price Qty}

/-- A book at update `n` takes the next diff. -/
theorem processDiff_replays {n : ℕ} (h : l.orderBook.Represents (exchangeBook log n)) {diff : Diff}
    (hdiff : IsDiffOf log diff) (hfirst : (firstUpdateId diff).toNat ≤ n + 1)
    (hfinal : n ≤ (finalUpdateId diff).toNat) :
    ∃ l', l.processEvent diff = some l' ∧
      l'.orderBook.Represents (exchangeBook log (finalUpdateId diff).toNat) := by
  obtain ⟨l', hl', h'⟩ := OrderBookEventListener.processEvent_spec h diff
  rw [exchangeBook, writes_delta hdiff.delta hfirst hfinal] at h'
  exact ⟨l', hl', h'⟩

/-- A book at the update before the first diff takes a contiguous chain. -/
theorem processDiffs_replay {last : UInt64}
    (h : l.orderBook.Represents (exchangeBook log last.toNat)) {diffs : List Diff}
    (hdiffs : ∀ d ∈ diffs, IsDiffOf log d)
    (hfirst : ∀ d ∈ diffs.head?, (firstUpdateId d).toNat ≤ last.toNat + 1 ∧
      last.toNat ≤ (finalUpdateId d).toNat)
    (hchain : diffs.IsChain fun d d' => (firstUpdateId d').toNat = (finalUpdateId d).toNat + 1) :
    ∃ l', diffs.foldlM OrderBookEventListener.processEvent l = some l' ∧
      l'.orderBook.Represents (exchangeBook log (lastIdAfter last diffs).toNat) := by
  induction diffs generalizing l last with
  | nil => exact ⟨l, rfl, h⟩
  | cons d ds ih =>
    obtain ⟨hlo, hhi⟩ := hfirst d rfl
    obtain ⟨l₁, hl₁, h₁⟩ := processDiff_replays h (hdiffs d (List.mem_cons_self ..)) hlo hhi
    -- the next diff starts right after `d`, where the book is now
    have hnext : ∀ d' ∈ ds.head?, (firstUpdateId d').toNat ≤ (finalUpdateId d).toNat + 1 ∧
        (finalUpdateId d).toNat ≤ (finalUpdateId d').toNat := by
      intro d' hd'
      obtain ⟨ds', rfl⟩ := List.head?_eq_some_iff.mp hd'
      have hlink : (firstUpdateId d').toNat = (finalUpdateId d).toNat + 1 :=
        (List.isChain_cons_cons.mp hchain).1
      have hrange := (hdiffs d' (by simp)).range
      omega
    obtain ⟨l', hl', h'⟩ := ih h₁ (fun d' hd' => hdiffs d' (List.mem_cons_of_mem _ hd')) hnext
      hchain.tail
    exact ⟨l', by rw [List.foldlM_cons, hl₁]; exact hl', h'⟩

/-- **Replay**: applied to an empty book, a snapshot of the exchange's book and a chain of diffs on
top of it leave the book that the exchange has after the last event's final update. -/
theorem replay_correct (hempty : l.orderBook.Represents fun _ => 0)
    {snapshot : OrderBookSnapshotEvent Price Qty} {diffs : List Diff}
    (hsnapshot : IsSnapshotOf log snapshot) (hdiffs : ∀ d ∈ diffs, IsDiffOf log d)
    (hchain : ChainOn snapshot diffs) :
    ∃ l₁ l', l.processEvent snapshot = some l₁ ∧
      diffs.foldlM OrderBookEventListener.processEvent l₁ = some l' ∧
      l'.orderBook.Represents (exchangeBook log (lastIdAfter snapshot.updateId diffs).toNat) := by
  obtain ⟨l₁, hl₁, h₁⟩ := OrderBookEventListener.processEvent_spec hempty snapshot
  rw [writes_full hsnapshot] at h₁
  -- the first diff may start before the snapshot's id, but not after the update that follows it
  have hfirst : ∀ d ∈ diffs.head?,
      (firstUpdateId d).toNat ≤ snapshot.updateId.toNat + 1 ∧
        snapshot.updateId.toNat ≤ (finalUpdateId d).toNat := by
    intro d hd
    obtain ⟨ds, rfl⟩ := List.head?_eq_some_iff.mp hd
    exact ⟨hchain.1.1, Nat.le_of_succ_le hchain.1.2⟩
  have hlinks : diffs.IsChain
      fun d d' => (firstUpdateId d').toNat = (finalUpdateId d).toNat + 1 := by
    cases diffs with
    | nil => exact List.IsChain.nil
    | cons d ds => exact hchain.2
  obtain ⟨l', hl', h'⟩ := processDiffs_replay h₁ hdiffs hfirst hlinks
  exact ⟨l₁, l', hl₁, hl', h'⟩

/-- A bid, an ask, the removal of the bid and another bid. -/
def someLog : List ((Side × ℕ) × ℕ) :=
  [((.bid, 10), 5), ((.ask, 12), 3), ((.bid, 10), 0), ((.bid, 9), 4)]

/-- The snapshot after update `2` of `someLog`. -/
def someSnapshot : OrderBookSnapshotEvent ℕ ℕ :=
  { updateId := 2, tradingPair := .kBTCUSDT, bids := [⟨10, 5⟩], asks := [⟨12, 3⟩] }

/-- The diff for the updates `2 … 4` of `someLog`; it repeats update `2`. -/
def someDiff : OrderBookDiffEvent ℕ ℕ :=
  { firstUpdateId := 2, finalUpdateId := 4, tradingPair := .kBTCUSDT, bids := [⟨10, 0⟩, ⟨9, 4⟩],
    asks := [⟨12, 3⟩] }

theorem replay_correct_someLog :
    ∃ l₁ l', (OrderBookEventListener.new 1).processEvent someSnapshot = some l₁ ∧
      [someDiff].foldlM OrderBookEventListener.processEvent l₁ = some l' ∧
      l'.orderBook.Represents (exchangeBook someLog 4) := by
  refine replay_correct (OrderBookEventListener.represents_new (le_refl 1)) ⟨?_, by decide⟩ ?_ ?_
  · rintro ⟨side, p⟩ hk
    have hkeys : (side, p) = (.ask, 12) ∨ (side, p) = (.bid, 10) := by
      by_contra hnot
      obtain ⟨hask, hbid⟩ := not_or.mp hnot
      refine hk (writes_apply_of_not_written fun w hw heq => ?_)
      have hfirst : w ∈ [((Side.bid, 10), 5), ((.ask, 12), 3)] := hw
      rcases List.mem_cons.mp hfirst with rfl | hw
      · exact hbid heq.symm
      · obtain rfl := List.mem_singleton.mp hw
        exact hask heq.symm
    rcases hkeys with heq | heq
    · exact ⟨((.ask, 12), 3), by decide, heq.symm⟩
    · exact ⟨((.bid, 10), 5), by decide, heq.symm⟩
  · intro d hd
    obtain rfl := List.mem_singleton.mp hd
    refine ⟨by decide, ?_, by decide⟩
    rintro k ⟨i, v, hlo, hhi, hv⟩
    have hi : i = 1 ∨ i = 2 ∨ i = 3 := by
      change 2 ≤ i + 1 at hlo
      change i + 1 ≤ 4 at hhi
      omega
    rcases hi with rfl | rfl | rfl
    all_goals
      obtain rfl := congrArg Prod.fst (Option.some.inj hv)
      decide
  · exact ⟨by decide, List.IsChain.singleton _⟩

end CryptobotAlgo.Aoe.Binance
