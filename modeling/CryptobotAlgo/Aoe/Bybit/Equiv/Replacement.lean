import CryptobotAlgo.Aoe.Bybit.Equiv.OrderBookSync
import CryptobotAlgo.Aos.Equiv.OrderBookFeed

/-!
# Snapshots and the levels before them

A snapshot should replace the book.  The class clears the book only before a snapshot with id `1`;
any other snapshot is written over the levels that are there, and a snapshot with the current id is
ignored even if diffs have changed the book since.

`Replaced` is what a snapshot should do, `ReplacesAt` the condition on the state before it under
which it does, and `snapshots_replace_iff` says that a run replaces the book at every snapshot
exactly when every snapshot meets the condition.
-/

namespace CryptobotAlgo.Aoe.Bybit

open Aos Feed LastWrite OrderBookSync OrderBookEventListener

variable {Price Qty : Type}

/-- The snapshot repeats the id of the current one, and no diff has been applied since. -/
def Repeats (calls : List (BookCall Price Qty)) (e : OrderBookEvent Price Qty) : Prop :=
  ∃ e', calls.getLast? = some (.snapshot e') ∧ e'.updateId = e.updateId

variable [LinearOrder Price] [DecidableEq Qty] [Zero Qty]

omit [DecidableEq Qty] in
/-- The levels of an event; a price that it does not list is absent. -/
def levelsOf (e : OrderBookEvent Price Qty) : Side × Price → Qty :=
  writes (fun _ => 0) (eventWrites e)

/-- After the events `pre` and the snapshot `e`, the book holds exactly the levels of `e`; or `e`
repeats the current snapshot and is ignored. -/
def Replaced (maxLevel : ℕ) (s₀ : OrderBookSync) (pre : List (Event Price Qty))
    (e : OrderBookEvent Price Qty) : Prop :=
  (∃ l, bookAfter maxLevel (machine.trace s₀ (pre ++ [.snapshot e])) = some l ∧
    l.orderBook.Represents (levelsOf e)) ∨
  Repeats (machine.trace s₀ pre) e ∧ (machine.step (machine.final s₀ pre) (.snapshot e)).2 = []

/-- The state `s` with the book `l`, reached by `calls`, lets the snapshot `e` replace the book: a
snapshot with the current id must be one that may be ignored, one with id `1` is safe, and any
other must list every price in the book. -/
def LetsReplace (s : OrderBookSync) (l : OrderBookEventListener Price Qty)
    (calls : List (BookCall Price Qty)) (e : OrderBookEvent Price Qty) : Prop :=
  if s.currentSnapshotUpdateId = e.updateId then
    l.orderBook.Represents (levelsOf e) ∨ Repeats calls e
  else
    e.updateId = 1 ∨ ∀ k, l.orderBook.HasLevel k → ∃ w ∈ eventWrites e, w.1 = k

/-- The state after the events `pre` lets the snapshot `e` replace the book. -/
def ReplacesAt (maxLevel : ℕ) (s₀ : OrderBookSync) (pre : List (Event Price Qty))
    (e : OrderBookEvent Price Qty) : Prop :=
  ∃ l, bookAfter maxLevel (machine.trace s₀ pre) = some l ∧
    LetsReplace (machine.final s₀ pre) l (machine.trace s₀ pre) e

/-- A snapshot with a new id that lists every price with a quantity may replace the book. -/
theorem replacesAt_of_listed {maxLevel : ℕ} (h : 1 ≤ maxLevel) {s₀ : OrderBookSync}
    {pre : List (Event Price Qty)} {e : OrderBookEvent Price Qty}
    (hnew : (machine.final s₀ pre).currentSnapshotUpdateId ≠ e.updateId)
    (hlisted : ∀ k, (quantitiesAfter (machine.trace s₀ pre) : Side × Price → Qty) k ≠ 0 →
      ∃ w ∈ eventWrites e, w.1 = k) :
    ReplacesAt maxLevel s₀ pre e := by
  obtain ⟨l, hl, hrep⟩ := bookAfter_spec h (machine.trace s₀ pre)
  refine ⟨l, hl, ?_⟩
  unfold LetsReplace
  rw [if_neg hnew]
  exact .inr fun k hk => hlisted k ((hrep.hasLevel_iff k).mp hk)

/-- What one snapshot does is decided by the state before it. -/
theorem replaced_iff {maxLevel : ℕ} (h : 1 ≤ maxLevel) (s₀ : OrderBookSync)
    (pre : List (Event Price Qty)) (e : OrderBookEvent Price Qty) :
    Replaced maxLevel s₀ pre e ↔ ReplacesAt maxLevel s₀ pre e := by
  obtain ⟨l, hl, hrep⟩ : ∃ l : OrderBookEventListener Price Qty,
      bookAfter maxLevel (machine.trace s₀ pre) = some l ∧
        l.orderBook.Represents (quantitiesAfter (machine.trace s₀ pre)) := bookAfter_spec h _
  have hat : ReplacesAt maxLevel s₀ pre e ↔
      LetsReplace (machine.final s₀ pre) l (machine.trace s₀ pre) e := by
    constructor
    · rintro ⟨l', hl', h'⟩
      obtain rfl := Option.some.inj (hl.symm.trans hl')
      exact h'
    · exact fun h' => ⟨l, hl, h'⟩
  rw [hat, Replaced, bookAfter_represents_iff h, machine.trace_concat]
  have hstep : machine.step (machine.final s₀ pre) (.snapshot e) =
    (machine.final s₀ pre).processSnapshot e := rfl
  rw [hstep]
  by_cases heq : (machine.final s₀ pre).currentSnapshotUpdateId = e.updateId
  · -- the snapshot is ignored
    rw [processSnapshot_of_eq heq, List.append_nil, LetsReplace, if_pos heq]
    constructor
    · rintro (hq | ⟨hr, -⟩)
      · exact .inl (hq ▸ hrep)
      · exact .inr hr
    · rintro (hl | hr)
      · exact .inl (hrep.unique hl)
      · exact .inr ⟨hr, rfl⟩
  · -- the snapshot is written over the book, which is empty only if it was cleared
    rw [processSnapshot_of_ne heq, LetsReplace, if_neg heq, or_iff_left (by simp)]
    by_cases hone : e.updateId = 1
    · rw [if_pos hone, ← List.append_assoc, quantitiesAfter_concat, quantitiesAfter_concat]
      exact ⟨fun _ => .inl hone, fun _ => rfl⟩
    · rw [if_neg hone, List.nil_append, quantitiesAfter_concat, or_iff_right hone]
      refine (writes_eq_writes_iff _ _ _).trans ?_
      simp only [hrep.hasLevel_iff]

/-- **Snapshot replacement**: whatever the ids at the start, every snapshot of a run replaces the
book exactly when every one arrives in a state that lets it. -/
theorem snapshots_replace_iff {maxLevel : ℕ} (h : 1 ≤ maxLevel) (diffId snapshotId : UInt64)
    (es : List (Event Price Qty)) :
    (∀ pre e post, es = pre ++ .snapshot e :: post →
      Replaced maxLevel (start diffId snapshotId) pre e) ↔
    ∀ pre e post, es = pre ++ .snapshot e :: post →
      ReplacesAt maxLevel (start diffId snapshotId) pre e := by
  constructor
  · intro hall pre e post hes
    exact (replaced_iff h _ pre e).mp (hall pre e post hes)
  · intro hall pre e post hes
    exact (replaced_iff h _ pre e).mpr (hall pre e post hes)

/-- Snapshot `5` has a bid at `10`, snapshot `7` one at `11`. -/
def resnapshotRun : List (Event ℕ ℕ) :=
  [.snapshot { updateId := 5, bids := [⟨10, 1⟩] }, .snapshot { updateId := 7, bids := [⟨11, 1⟩] }]

/-- After snapshot `7` the bid at `10` of snapshot `5` is still in the book. -/
theorem level_left_over :
    ¬ ∀ pre e post, resnapshotRun = pre ++ .snapshot e :: post →
      Replaced 1 (start 0 0) pre e := by
  intro h
  rcases h [.snapshot { updateId := 5, bids := [⟨10, 1⟩] }] { updateId := 7, bids := [⟨11, 1⟩] } []
    rfl with ⟨l, hl, hrep⟩ | ⟨-, hignored⟩
  · have hlevel : l.orderBook.inner.bids.priceToLevel 10 = some 0 := by
      have hbook : (bookAfter 1 (machine.trace (start 0 0) resnapshotRun)).map
        (fun l : OrderBookEventListener ℕ ℕ => l.orderBook.inner.bids.priceToLevel 10) =
          some (some 0) := rfl
      change bookAfter 1 (machine.trace (start 0 0) resnapshotRun) = some l at hl
      rw [hl] at hbook
      exact Option.some.inj hbook
    exact (hrep.hasLevel_iff (.bid, 10)).mp ⟨0, hlevel⟩ (by decide)
  · exact absurd hignored (by decide)

/-- A book with two bids, a diff that removes one of them and adds a third, and a second snapshot
that lists what is then in the book. -/
def relistingRun : List (Event ℕ ℕ) :=
  [.snapshot { updateId := 5, bids := [⟨10, 1⟩, ⟨11, 1⟩] },
    .diff { updateId := 6, bids := [⟨10, 0⟩, ⟨12, 4⟩] },
    .snapshot { updateId := 7, bids := [⟨11, 2⟩, ⟨12, 0⟩, ⟨13, 3⟩] }]

/-- The second snapshot changes one level, removes one and adds one, and the book is then exactly
what it says. -/
theorem snapshots_replace_relistingRun :
    Replaced 1 (start 0 0)
      [.snapshot { updateId := 5, bids := [⟨10, 1⟩, ⟨11, 1⟩] },
        .diff { updateId := 6, bids := [⟨10, 0⟩, ⟨12, 4⟩] }]
      ({ updateId := 7, bids := [⟨11, 2⟩, ⟨12, 0⟩, ⟨13, 3⟩] } : OrderBookEvent ℕ ℕ) := by
  refine (snapshots_replace_iff (le_refl 1) 0 0 relistingRun).mpr ?_ _ _ [] rfl
  intro pre e post hsplit
  rcases pre with _ | ⟨x, _ | ⟨y, _ | ⟨z, pre⟩⟩⟩
  · obtain rfl := Event.snapshot.inj (List.cons.inj hsplit).1
    exact replacesAt_of_listed (le_refl 1) (by decide) fun k hk => absurd rfl hk
  · cases (List.cons.inj (List.cons.inj hsplit).2).1
  · obtain ⟨rfl, htail⟩ := List.cons.inj hsplit
    obtain ⟨rfl, hrest⟩ := List.cons.inj htail
    obtain rfl := Event.snapshot.inj (List.cons.inj hrest).1
    refine replacesAt_of_listed (le_refl 1) (by decide) fun k hk => ?_
    by_contra hnot
    apply hk
    -- only the bid at `10` is written and not listed, and its last quantity is `0`
    have h11 : k ≠ (.bid, 11) := fun h => hnot ⟨((.bid, 11), 2), by decide, h.symm⟩
    have h12 : k ≠ (.bid, 12) := fun h => hnot ⟨((.bid, 12), 0), by decide, h.symm⟩
    show writes (fun _ => 0) [((.bid, 10), 1), ((.bid, 11), 1), ((.bid, 10), 0), ((.bid, 12), 4)] k
      = 0
    simp [writes_cons, Function.update_apply, h11, h12]
  · cases pre <;> cases hsplit

end CryptobotAlgo.Aoe.Bybit
