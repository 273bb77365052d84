import CryptobotAlgo.Aoe.Binance.Equiv.Phase
import CryptobotAlgo.Aoe.Binance.Equiv.Replay
import CryptobotAlgo.Aos.Equiv.OrderBookFeed

/-!
# What the synchronised book holds

The synchronisation and the order book behind it, against the exchange that numbers the updates of
its book.  Diffs may be lost, repeated or reordered; each event that does arrive tells the truth
about the exchange's log (`Event.Tells`).

`Tracks` is the invariant: the book is that of a snapshot, or empty, patched with the writes of a
contiguous part of the log (`LastWrite.PatchedAt`), up to the last diff while it is synchronised.
It needs one thing that the class does not check: that the first diff on top of a snapshot does not
start after it (`DiffReaches`).  The book is then the exchange's book at the last diff, from the
moment the diffs have caught up with the snapshot (`FollowsExchange`).  After a loss it keeps what
it holds until the next diff clears it.

The markets differ in the update at which a diff starts, and in the test that compares it with the
last diff.  `DiffsTell` is what the argument needs to know about these.
-/

namespace CryptobotAlgo.Aoe.Binance

open Aos Feed LastWrite OrderBookSync OrderBookEventListener

variable {Price Qty Diff : Type} [LinearOrder Price] [Zero Qty]
  [OrderBookDiffEventInterface Diff]

/-- The event tells the truth about the log, with the positions in the log as update ids.  A
snapshot that could not be parsed says nothing. -/
def Event.Tells (log : List ((Side × Price) × Qty)) (tells : Diff → Prop) :
    Event Price Qty Diff → Prop
  | .snapshot ptr => ptr.tradingPair ≠ .kCount →
      IsSnapshotOf log ptr ∧ ptr.updateId.toNat ≤ log.length
  | .diff d => tells d

/-- What the book holds, in a state of the class. -/
structure Tracks (log : List ((Side × Price) × Qty)) (tells : Diff → Prop)
    (s : OrderBookSync Price Qty Diff) (book : Side × Price → Qty) : Prop where
  buffer : ∀ d ∈ s.diffs, tells d
  /-- while a snapshot is awaited or waits, the book is empty -/
  empty : s.snapshotRequestInFlight = true ∨ s.needProcessCurrentSnapshot = true →
    book = fun _ => 0
  snapshot : s.needProcessCurrentSnapshot = true → ∀ e ∈ s.lastSnapshot,
    IsSnapshotOf log e ∧ e.updateId.toNat ≤ log.length
  /-- a synced book is the last snapshot, patched up to the last diff -/
  patched : ∃ n hi, PatchedAt (fun _ => 0) log n hi book ∧ (s.snapshotWasProcessed = true →
    n = s.lastSnapshotUpdateId.toNat ∧ hi = s.lastDiffUpdateId.toNat)

variable {log : List ((Side × Price) × Qty)} {checkPacketLost : UInt64 → Diff → Bool}
  {tells : Diff → Prop} {start : Diff → ℕ}

theorem toNat_add_one {a : UInt64} {n : ℕ} (hn : n + 1 < 2 ^ 64) (ha : a.toNat ≤ n) :
    (a + 1).toNat = a.toNat + 1 := by
  rw [UInt64.toNat_add, UInt64.toNat_one]
  exact Nat.mod_eq_of_lt (by omega)

omit [LinearOrder Price] [Zero Qty] in
/-- The test for a bridging diff, with ids as numbers. -/
theorem bridges_iff_toNat {sid : UInt64} {n : ℕ} (hn : n + 1 < 2 ^ 64) (hsid : sid.toNat ≤ n)
    (d : Diff) :
    bridges sid d = true ↔
      (firstUpdateId d).toNat ≤ sid.toNat + 1 ∧ sid.toNat + 1 ≤ (finalUpdateId d).toNat := by
  unfold bridges
  rw [Bool.and_eq_true, decide_eq_true_eq, decide_eq_true_eq, UInt64.le_iff_toNat_le,
    UInt64.le_iff_toNat_le, toNat_add_one hn hsid]

omit [LinearOrder Price] [Zero Qty] in
theorem lastSnapshotUpdateId_drainDiffs (s : OrderBookSync Price Qty Diff) (ds : List Diff) :
    (drainDiffs checkPacketLost s ds).1.lastSnapshotUpdateId = s.lastSnapshotUpdateId := by
  induction ds generalizing s with
  | nil => rfl
  | cons d ds ih =>
    unfold drainDiffs
    split_ifs
    · rfl
    · exact ih _

variable [OrderBookEventInterface Diff Price Qty]

section Steps

variable {s : SyncState Price Qty Diff} {t : List (Call (OrderBookSnapshotEvent Price Qty) Diff)}

end Steps

/-! ### Runs -/

variable [DecidableEq Qty]

/-- What the local book is after the calls of a run that has ended in the state `s`. -/
structure FollowsExchange (log : List ((Side × Price) × Qty)) (maxLevel : ℕ)
    (s : OrderBookSync Price Qty Diff) (t : List (Effect Price Qty Diff)) : Prop where
  /-- in every state it is a book of the exchange, patched with a part of the log that begins no
  later than right after it -/
  patched : ∃ book n hi, PatchedAt (fun _ => 0) log n hi book ∧
    ∃ l, bookAfter maxLevel (calls t) = some l ∧ l.orderBook.Represents book
  /-- while a snapshot is awaited or waits, it is empty -/
  empty : s.snapshotRequestInFlight = true ∨ s.needProcessCurrentSnapshot = true →
    ∃ l, bookAfter maxLevel (calls t) = some l ∧ l.orderBook.Represents fun _ => 0
  /-- once the diffs have caught up with the snapshot, it is the exchange's book -/
  current : s.snapshotWasProcessed = true →
    s.lastSnapshotUpdateId.toNat ≤ s.lastDiffUpdateId.toNat →
    ∃ l, bookAfter maxLevel (calls t) = some l ∧
      l.orderBook.Represents (exchangeBook log s.lastDiffUpdateId.toNat)

omit [OrderBookDiffEventInterface Diff] in
/-- Every level of the local book is, in every state, as the exchange had it at some time. -/
theorem FollowsExchange.levels {maxLevel : ℕ} {s : OrderBookSync Price Qty Diff}
    {t : List (Effect Price Qty Diff)} (h : FollowsExchange log maxLevel s t) :
    ∃ book, (∃ l, bookAfter maxLevel (calls t) = some l ∧ l.orderBook.Represents book) ∧
      ∀ level, ∃ i, i ≤ log.length ∧ book level = exchangeBook log i level := by
  obtain ⟨book, n, hi, hpatched, hbook⟩ := h.patched
  exact ⟨book, hbook, hpatched.apply⟩

end CryptobotAlgo.Aoe.Binance
