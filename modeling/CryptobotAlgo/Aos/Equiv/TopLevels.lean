import CryptobotAlgo.Aos.Equiv.OrderBook
import CryptobotAlgo.Machine.Basic

/-!
# Exporting the best levels

`UpdateTopNBids` and its like write the best levels of a side over the first entries of a buffer of
the caller, and answer whether an entry has changed by that; the entries behind them stay as they
are.

`topLevels_exported` says what a buffer and an answer tell about the book after any calls.  As long
as no call finds fewer levels than an earlier one, a buffer that held no level at first holds the
best levels of the book and no others, and the answer is whether they have changed since the last
call.
-/

namespace CryptobotAlgo.Aos

open Common

variable {Price Qty : Type}

/-! ### The loop -/

namespace BookSide

section Loop

variable {A : Type} [DecidableEq A] (read : OrderBookLevel Price Qty → A)
  {objects : Ptr → Option (OrderBookLevel Price Qty)}

/-- With `k` entries to go, the first `k` levels are written over `entries`, and the answer is
whether that changes them. -/
theorem exportFrom_spec {it : List Ptr} {levels : List (OrderBookLevel Price Qty)}
    (hit : List.Forall₂ (fun ptr level => objects ptr = some level) it levels)
    (before entries : List A) {k : ℕ} (hk : k ≤ entries.length) (maxValidLvl : ℕ)
    (updateExist : Bool) :
    ∃ top, exportFrom read objects (before.length + k) it before.length
        ⟨before ++ entries, maxValidLvl, updateExist⟩ = some top ∧
      top.buffer = before ++ ((levels.take k).map read ++ entries.drop (levels.take k).length) ∧
      (top.updateExist = true ↔ updateExist = true ∨
        entries.take (levels.take k).length ≠ (levels.take k).map read) := by
  induction hit generalizing before entries k maxValidLvl updateExist with
  | nil =>
    refine ⟨_, rfl, ?_, ?_⟩
    · simp
    · simp
  | @cons ptr level it levels hptr _ ih =>
    cases k with
    | zero =>
      refine ⟨⟨before ++ entries, maxValidLvl, updateExist⟩, ?_, ?_, ?_⟩
      · simp [exportFrom]
      · simp
      · simp
    | succ k =>
      obtain ⟨entry, entries, rfl⟩ := List.exists_cons_of_length_pos (by omega : 0 < entries.length)
      have hlt : before.length < before.length + (k + 1) := by omega
      have hget : (before ++ entry :: entries)[before.length]? = some entry := by simp
      have hset : (before ++ entry :: entries).set before.length (read level) =
          (before ++ [read level]) ++ entries := by simp
      have hlength : ∀ x : A, (before ++ [x]).length + k = before.length + (k + 1) := by
        intro x
        rw [List.length_append, List.length_singleton]
        omega
      rw [List.length_cons] at hk
      simp only [exportFrom, if_pos hlt, hptr, Option.bind_eq_bind, Option.bind_some, hget, hset]
      by_cases hsame : entry = read level
      · -- the entry is what is to be written
        obtain ⟨top, htop, hbuffer, hanswer⟩ := ih (before ++ [entry]) entries
          (Nat.le_of_succ_le_succ hk) maxValidLvl updateExist
        rw [hlength, List.length_append, List.length_singleton] at htop
        refine ⟨top, ?_, ?_, ?_⟩
        · rw [if_neg (not_not.mpr hsame), List.append_cons]
          exact htop
        · rw [hbuffer, hsame]
          simp
        · rw [hanswer, hsame]
          simp
      · obtain ⟨top, htop, hbuffer, hanswer⟩ := ih (before ++ [read level]) entries
          (Nat.le_of_succ_le_succ hk) before.length true
        rw [hlength, List.length_append, List.length_singleton] at htop
        refine ⟨top, ?_, ?_, ?_⟩
        · rw [if_pos hsame]
          exact htop
        · rw [hbuffer]
          simp
        · rw [hanswer]
          simp [hsame]

end Loop

/-! ### The levels of a side -/

/-- The levels of a side, best first. -/
def sortedLevels (s : BookSide Price Qty) : List (OrderBookLevel Price Qty) :=
  s.levels.filterMap s.pool.objects

section Levels

variable [Zero Qty] {less : Price → Price → Prop} {s : BookSide Price Qty} {ref : Price → Qty}

theorem Represents.forall₂_sortedLevels (h : Represents less s ref) :
    List.Forall₂ (fun ptr level => s.pool.objects ptr = some level) s.levels s.sortedLevels := by
  have hlive : ∀ ptr ∈ s.levels, ∃ level, s.pool.objects ptr = some level := by
    intro ptr hptr
    obtain ⟨p, -, hp, -⟩ := h.live hptr
    exact ⟨_, hp⟩
  unfold sortedLevels
  generalize s.levels = levels at hlive
  induction levels with
  | nil => exact .nil
  | cons ptr levels ih =>
    obtain ⟨level, hlevel⟩ := hlive ptr List.mem_cons_self
    rw [List.filterMap_cons_some hlevel]
    exact .cons hlevel (ih fun q hq => hlive q (List.mem_cons_of_mem _ hq))

theorem Represents.mem_sortedLevels (h : Represents less s ref)
    (level : OrderBookLevel Price Qty) :
    level ∈ s.sortedLevels ↔ ref level.price ≠ 0 ∧ level.qty = ref level.price := by
  unfold sortedLevels
  rw [List.mem_filterMap]
  constructor
  · rintro ⟨ptr, hptr, hlevel⟩
    obtain ⟨p, -, hp, hne⟩ := h.live hptr
    obtain rfl := Option.some.inj (hp.symm.trans hlevel)
    exact ⟨hne, rfl⟩
  · rintro ⟨hne, hqty⟩
    obtain ⟨ptr, hptr⟩ := (h.mapped_iff level.price).mpr hne
    refine ⟨ptr, (h.tree ptr).mpr ⟨_, hptr⟩, ?_⟩
    rw [(h.mapped _ _ hptr).1, ← hqty]

theorem Represents.pairwise_sortedLevels (h : Represents less s ref) :
    s.sortedLevels.Pairwise fun a b => less a.price b.price := by
  unfold sortedLevels
  rw [List.pairwise_filterMap]
  refine h.sorted.imp ?_
  rintro p q ⟨lp, lq, hp, hq, hless⟩ a ha b hb
  obtain rfl := Option.some.inj (hp.symm.trans ha)
  obtain rfl := Option.some.inj (hq.symm.trans hb)
  exact hless

/-- A call succeeds on a buffer of at least `n`, and writes at most `n` levels over it. -/
theorem Represents.exportFrom {A : Type} [DecidableEq A] (h : Represents less s ref)
    (read : OrderBookLevel Price Qty → A) {n : ℕ} {buffer : List A} (hn : n ≤ buffer.length)
    (maxValidLvl : ℕ) :
    ∃ top, BookSide.exportFrom read s.pool.objects n s.levels 0 { buffer, maxValidLvl } =
        some top ∧
      top.buffer = (s.sortedLevels.take n).map read ++
        buffer.drop (s.sortedLevels.take n).length ∧
      (top.updateExist = true ↔
        buffer.take (s.sortedLevels.take n).length ≠ (s.sortedLevels.take n).map read) := by
  obtain ⟨top, htop, hbuffer, hanswer⟩ := exportFrom_spec read h.forall₂_sortedLevels [] buffer hn
    maxValidLvl false
  rw [List.length_nil, Nat.zero_add, List.nil_append] at htop
  refine ⟨top, htop, hbuffer, hanswer.trans ?_⟩
  exact or_iff_right Bool.false_ne_true

end Levels

end BookSide

/-! ### Both sides -/

/-- An entry of the buffer for a side. -/
def TopEntry (Price Qty : Type) : Side → Type
  | .bid => BestBid Price Qty
  | .ask => BestAsk Price Qty

namespace TopEntry

instance [DecidableEq Price] [DecidableEq Qty] : ∀ side, DecidableEq (TopEntry Price Qty side)
  | .bid => inferInstanceAs (DecidableEq (BestBid Price Qty))
  | .ask => inferInstanceAs (DecidableEq (BestAsk Price Qty))

/-- The entry for a level. -/
def ofLevel (level : OrderBookLevel Price Qty) : (side : Side) → TopEntry Price Qty side
  | .bid => (⟨level.price, level.qty⟩ : BestBid Price Qty)
  | .ask => (⟨level.price, level.qty⟩ : BestAsk Price Qty)

def qty : {side : Side} → TopEntry Price Qty side → Qty
  | .bid, bid => BestBid.bidQty bid
  | .ask, ask => BestAsk.askQty ask

@[simp] theorem qty_ofLevel (level : OrderBookLevel Price Qty) :
    ∀ side, (ofLevel level side).qty = level.qty
  | .bid => rfl
  | .ask => rfl

theorem ofLevel_injective (side : Side) :
    Function.Injective fun level : OrderBookLevel Price Qty => ofLevel level side := by
  intro a b hab
  cases side with
  | bid =>
    obtain ⟨hprice, hqty⟩ := BestBid.mk.inj hab
    cases a
    cases b
    congr
  | ask =>
    obtain ⟨hprice, hqty⟩ := BestAsk.mk.inj hab
    cases a
    cases b
    congr

end TopEntry

variable [LinearOrder Price]

/-- The order of a side, best first. -/
def Side.Better : Side → Price → Price → Prop
  | .bid => (· > ·)
  | .ask => (· < ·)

namespace OrderBook

omit [LinearOrder Price] in
/-- The levels of a side, best first. -/
def sortedLevels (b : OrderBook Price Qty) : Side → List (OrderBookLevel Price Qty)
  | .bid => b.inner.bids.sortedLevels
  | .ask => b.inner.asks.sortedLevels

variable [DecidableEq Qty]

/-- `UpdateTopNBids` and `UpdateTopNAsks`. -/
def updateTopN (b : OrderBook Price Qty) : (side : Side) → ℕ → List (TopEntry Price Qty side) →
    ℕ → Option (BookSide.TopLevels (TopEntry Price Qty side))
  | .bid => b.updateTopNBids
  | .ask => b.updateTopNAsks

/-- `UpdateTop5Bids` and `UpdateTop5Asks`. -/
def updateTop5 (b : OrderBook Price Qty) : (side : Side) → List (TopEntry Price Qty side) →
    ℕ → Option (BookSide.TopLevels (TopEntry Price Qty side))
  | .bid => b.updateTop5Bids
  | .ask => b.updateTop5Asks

end OrderBook

/-- The levels have been written over the first entries of the buffer, and the answer is whether
that has changed them. -/
structure Exported {side : Side} (levels : List (OrderBookLevel Price Qty))
    (buffer : List (TopEntry Price Qty side)) (top : BookSide.TopLevels (TopEntry Price Qty side)) :
    Prop where
  entries : top.buffer =
    levels.map (TopEntry.ofLevel · side) ++ buffer.drop levels.length
  answer : top.updateExist = true ↔
    buffer.take levels.length ≠ levels.map (TopEntry.ofLevel · side)

/-- The levels of a side are those of the map `ref`, best first. -/
structure IsSorted (side : Side) (ref : Side × Price → Qty) [Zero Qty]
    (levels : List (OrderBookLevel Price Qty)) : Prop where
  sorted : levels.Pairwise fun a b => side.Better a.price b.price
  mem_iff : ∀ level, level ∈ levels ↔
    ref (side, level.price) ≠ 0 ∧ level.qty = ref (side, level.price)

namespace OrderBook

variable [DecidableEq Qty] [Zero Qty] {b : OrderBook Price Qty} {ref : Side × Price → Qty}

omit [DecidableEq Qty] in
theorem Represents.isSorted (h : b.Represents ref) (side : Side) :
    IsSorted side ref (b.sortedLevels side) := by
  cases side with
  | bid => exact ⟨h.bids.pairwise_sortedLevels, h.bids.mem_sortedLevels⟩
  | ask => exact ⟨h.asks.pairwise_sortedLevels, h.asks.mem_sortedLevels⟩

theorem Represents.updateTopN (h : b.Represents ref) {side : Side} {n : ℕ}
    {buffer : List (TopEntry Price Qty side)} (hn : n ≤ buffer.length) (maxValidLvl : ℕ) :
    ∃ top, b.updateTopN side n buffer maxValidLvl = some top ∧
      Exported ((b.sortedLevels side).take n) buffer top := by
  cases side with
  | bid =>
    obtain ⟨top, htop, hbuffer, hanswer⟩ := h.bids.exportFrom (TopEntry.ofLevel · .bid) hn
      maxValidLvl
    refine ⟨top, ?_, hbuffer, hanswer⟩
    exact (if_neg hn.not_gt).trans htop
  | ask =>
    obtain ⟨top, htop, hbuffer, hanswer⟩ := h.asks.exportFrom (TopEntry.ofLevel · .ask) hn
      maxValidLvl
    refine ⟨top, ?_, hbuffer, hanswer⟩
    exact (if_neg hn.not_gt).trans htop

omit [Zero Qty] in
/-- On a buffer of at least five, `UpdateTop5Bids` does what `UpdateTopNBids` does for five. -/
theorem updateTop5_eq {side : Side} {buffer : List (TopEntry Price Qty side)}
    (h : 5 ≤ buffer.length) (maxValidLvl : ℕ) :
    b.updateTop5 side buffer maxValidLvl = b.updateTopN side 5 buffer maxValidLvl := by
  cases side with
  | bid => exact (if_neg h.not_gt).symm
  | ask => exact (if_neg h.not_gt).symm

end OrderBook

/-! ### Calls on one buffer -/

/-- A call on the book, or an export to the buffer. -/
inductive ExportCall (Price Qty : Type)
  | book (c : OrderBook.Command Price Qty)
  | updateTopN
  | updateTop5
  deriving DecidableEq, Repr

/-- The call is an export. -/
def ExportCall.IsExport : ExportCall Price Qty → Prop
  | .book _ => False
  | .updateTopN => True
  | .updateTop5 => True

/-- A book and the buffer of a caller, with the last answer. -/
structure TopExporter (Price Qty : Type) (side : Side) where
  book : OrderBook Price Qty
  top : BookSide.TopLevels (TopEntry Price Qty side)

section Machine

variable [DecidableEq Qty] [Zero Qty] {side : Side}

/-- Where a call on the book or an export leads; `none` after a misuse of memory. -/
def TopExporter.run (n : ℕ) (s : TopExporter Price Qty side) :
    ExportCall Price Qty → Option (TopExporter Price Qty side)
  | .book c => (s.book.run c).map fun b => { s with book := b }
  | .updateTopN =>
    (s.book.updateTopN side n s.top.buffer s.top.maxValidLvl).map fun top => { s with top }
  | .updateTop5 =>
    (s.book.updateTop5 side s.top.buffer s.top.maxValidLvl).map fun top => { s with top }

/-- Calls on a book and exports of at most `n` levels of one side to one buffer; an export emits the
levels that are to be exported. -/
def exportMachine (Price Qty : Type) [LinearOrder Price] [DecidableEq Qty] [Zero Qty] (side : Side)
    (n : ℕ) : Machine (Option (TopExporter Price Qty side)) (ExportCall Price Qty)
      (List (OrderBookLevel Price Qty)) where
  enabled _ c := c = .updateTop5 → n = 5
  step s c := (s.bind fun s => s.run n c,
    match s, c with
    | some s, .updateTopN => [(s.book.sortedLevels side).take n]
    | some s, .updateTop5 => [(s.book.sortedLevels side).take n]
    | _, _ => [])

/-- What the calls make of the book. -/
def ExportCall.reference (ref : Side × Price → Qty) : ExportCall Price Qty → Side × Price → Qty
  | .book c => OrderBook.reference ref c
  | .updateTopN => ref
  | .updateTop5 => ref

variable {n : ℕ} {s : TopExporter Price Qty side} {ref : Side × Price → Qty}

/-- A call on the book leaves the buffer alone. -/
theorem run_book (h : s.book.Represents ref) (c : OrderBook.Command Price Qty) :
    ∃ s', s.run n (.book c) = some s' ∧
      s'.book.Represents (ExportCall.reference ref (.book c)) ∧ s'.top = s.top := by
  obtain ⟨b, hb, href⟩ := OrderBook.run_refines _ _ h c
  refine ⟨{ s with book := b }, ?_, href, rfl⟩
  rw [TopExporter.run, hb]
  rfl

/-- An export leaves the book alone. -/
theorem run_export (h : s.book.Represents ref) (hn : n ≤ s.top.buffer.length)
    {c : ExportCall Price Qty} (hc : c.IsExport)
    (henabled : (exportMachine Price Qty side n).enabled (some s) c) :
    ∃ s', s.run n c = some s' ∧ s'.book = s.book ∧
      Exported ((s.book.sortedLevels side).take n) s.top.buffer s'.top ∧
      ((exportMachine Price Qty side n).step (some s) c).2 =
        [(s.book.sortedLevels side).take n] := by
  obtain ⟨top, htop, hexported⟩ := h.updateTopN hn s.top.maxValidLvl
  cases c with
  | book c => exact hc.elim
  | updateTopN =>
    refine ⟨{ s with top }, ?_, rfl, hexported, rfl⟩
    rw [TopExporter.run, htop]
    rfl
  | updateTop5 =>
    obtain rfl := henabled rfl
    refine ⟨{ s with top }, ?_, rfl, hexported, rfl⟩
    rw [TopExporter.run, OrderBook.updateTop5_eq hn, htop]
    rfl

/-! ### Runs -/

/-- No entry of the buffer holds a level. -/
def HoldsNoLevel (buffer : List (TopEntry Price Qty side)) : Prop := ∀ entry ∈ buffer, entry.qty = 0

omit [LinearOrder Price] [DecidableEq Qty] [Zero Qty] in
/-- No list is shorter than an earlier one. -/
def NeverShrinks (lists : List (List (OrderBookLevel Price Qty))) : Prop :=
  lists.Pairwise fun a b => a.length ≤ b.length

omit [LinearOrder Price] [DecidableEq Qty] [Zero Qty] in
/-- The levels of the last export; none before the first one. -/
def lastLevels (lists : List (List (OrderBookLevel Price Qty))) :
    List (OrderBookLevel Price Qty) :=
  lists.getLast?.getD []

/-- After the calls `calls`, with the exports `lists`, on a buffer that was `buffer` at first. -/
structure ExportInv (buffer : List (TopEntry Price Qty side))
    (calls : List (ExportCall Price Qty)) (s : TopExporter Price Qty side)
    (lists : List (List (OrderBookLevel Price Qty))) : Prop where
  represents : s.book.Represents (calls.foldl ExportCall.reference fun _ => 0)
  length : s.top.buffer.length = buffer.length
  /-- only levels have been exported -/
  levels : ∀ levels ∈ lists, ∀ level ∈ levels, level.qty ≠ 0
  /-- the levels of the last export, and behind them nothing was written -/
  entries : NeverShrinks lists → s.top.buffer =
    (lastLevels lists).map (TopEntry.ofLevel · side) ++ buffer.drop (lastLevels lists).length

omit [LinearOrder Price] [DecidableEq Qty] [Zero Qty] in
theorem lastLevels_concat (lists : List (List (OrderBookLevel Price Qty)))
    (levels : List (OrderBookLevel Price Qty)) : lastLevels (lists ++ [levels]) = levels := by
  rw [lastLevels, List.getLast?_concat]
  rfl

omit [LinearOrder Price] [DecidableEq Qty] [Zero Qty] in
theorem NeverShrinks.concat {lists : List (List (OrderBookLevel Price Qty))}
    {levels : List (OrderBookLevel Price Qty)} (h : NeverShrinks (lists ++ [levels])) :
    NeverShrinks lists ∧ (lastLevels lists).length ≤ levels.length := by
  obtain ⟨hlists, -, hlast⟩ := List.pairwise_append.mp h
  refine ⟨hlists, ?_⟩
  unfold lastLevels
  cases hl : lists.getLast? with
  | none => exact Nat.zero_le _
  | some last => exact hlast last (List.mem_of_getLast? hl) levels (List.mem_singleton_self _)

variable {buffer : List (TopEntry Price Qty side)} {calls : List (ExportCall Price Qty)}
  {lists : List (List (OrderBookLevel Price Qty))}

omit [DecidableEq Qty] in
/-- The levels of the book have quantities. -/
theorem IsSorted.qty_ne_zero {levels : List (OrderBookLevel Price Qty)}
    (h : IsSorted side ref levels) {level : OrderBookLevel Price Qty} (hlevel : level ∈ levels) :
    level.qty ≠ 0 := by
  obtain ⟨hne, hqty⟩ := (h.mem_iff level).mp hlevel
  rw [hqty]
  exact hne

omit [DecidableEq Qty] in
theorem ExportCall.reference_of_isExport {c : ExportCall Price Qty} (hc : c.IsExport)
    (ref : Side × Price → Qty) : c.reference ref = ref := by
  cases c with
  | book c => exact hc.elim
  | updateTopN => rfl
  | updateTop5 => rfl

omit [DecidableEq Qty] in
/-- An export keeps the invariant: it reaches at least as far as those before it. -/
theorem ExportInv.export (h : ExportInv buffer calls s lists) (hn : n ≤ buffer.length)
    {c : ExportCall Price Qty} (hc : c.IsExport) {s' : TopExporter Price Qty side}
    (hbook : s'.book = s.book)
    (hexported : Exported ((s.book.sortedLevels side).take n) s.top.buffer s'.top) :
    ExportInv buffer (calls ++ [c]) s' (lists ++ [(s.book.sortedLevels side).take n]) := by
  have hsorted := h.represents.isSorted side
  have hfits : ((s.book.sortedLevels side).take n).length ≤ s.top.buffer.length := by
    rw [h.length]
    exact (List.length_take_le n _).trans hn
  refine ⟨?_, ?_, ?_, ?_⟩
  · rw [List.foldl_append, List.foldl_cons, List.foldl_nil, ExportCall.reference_of_isExport hc,
      hbook]
    exact h.represents
  · rw [hexported.entries, List.length_append, List.length_map, List.length_drop, ← h.length]
    omega
  · intro levels hlevels level hlevel
    rcases List.mem_append.mp hlevels with hold | hnew
    · exact h.levels levels hold level hlevel
    · rw [List.mem_singleton.mp hnew] at hlevel
      exact hsorted.qty_ne_zero (List.mem_of_mem_take hlevel)
  · intro hshrink
    obtain ⟨hlists, hle⟩ := hshrink.concat
    have hlast : ((lastLevels lists).map (TopEntry.ofLevel · side)).length ≤
        ((s.book.sortedLevels side).take n).length := by
      rw [List.length_map]
      exact hle
    rw [lastLevels_concat, hexported.entries, h.entries hlists, List.drop_append,
      List.drop_eq_nil_of_le hlast, List.nil_append, List.drop_drop, List.length_map,
      Nat.add_sub_cancel' hle]

/-- One call keeps the invariant. -/
theorem ExportInv.step (h : ExportInv buffer calls s lists) (hn : n ≤ buffer.length)
    {c : ExportCall Price Qty}
    (henabled : (exportMachine Price Qty side n).enabled (some s) c) :
    ∃ s', s.run n c = some s' ∧ ExportInv buffer (calls ++ [c]) s'
      (lists ++ ((exportMachine Price Qty side n).step (some s) c).2) := by
  have hexport : c.IsExport → ∃ s', s.run n c = some s' ∧ ExportInv buffer (calls ++ [c]) s'
      (lists ++ ((exportMachine Price Qty side n).step (some s) c).2) := by
    intro hc
    obtain ⟨s', hs', hbook, hexported, hemits⟩ :=
      run_export h.represents (h.length ▸ hn) hc henabled
    rw [hemits]
    exact ⟨s', hs', h.export hn hc hbook hexported⟩
  cases c with
  | book c =>
    have hemits : ((exportMachine Price Qty side n).step (some s) (.book c)).2 = [] := rfl
    obtain ⟨s', hs', href, htop⟩ := run_book (n := n) h.represents c
    rw [hemits, List.append_nil]
    refine ⟨s', hs', ?_, ?_, h.levels, ?_⟩
    · rw [List.foldl_append]
      exact href
    · rw [htop]
      exact h.length
    · rw [htop]
      exact h.entries
  | updateTopN => exact hexport trivial
  | updateTop5 => exact hexport trivial

/-- After every run there is a state, and it has the invariant. -/
theorem exportInv_final {maxLevel : ℕ} (hlevel : 1 ≤ maxLevel) (hn : n ≤ buffer.length)
    (maxValidLvl : ℕ)
    (h : (exportMachine Price Qty side n).Legal
      (some ⟨.new maxLevel, { buffer, maxValidLvl }⟩) calls) :
    ∃ s, (exportMachine Price Qty side n).final
        (some ⟨.new maxLevel, { buffer, maxValidLvl }⟩) calls = some s ∧
      ExportInv buffer calls s ((exportMachine Price Qty side n).trace
        (some ⟨.new maxLevel, { buffer, maxValidLvl }⟩) calls) := by
  refine (exportMachine Price Qty side n).invariant_events
    (P := fun calls s lists => ∃ s₁, s = some s₁ ∧ ExportInv buffer calls s₁ lists) ?_ ?_ h
  · rintro calls s lists c hc ⟨s, rfl, hinv⟩
    exact hinv.step hn hc
  · exact ⟨_, rfl, OrderBook.represents_new hlevel, rfl, by simp, fun _ => rfl⟩

/-! ### What an export tells -/

/-- The first `n` of the levels are in the buffer, and the answer is whether one of them was not
there before. -/
structure ExportsBest (n : ℕ) (levels : List (OrderBookLevel Price Qty))
    (buffer : List (TopEntry Price Qty side)) (top : BookSide.TopLevels (TopEntry Price Qty side)) :
    Prop where
  entry : ∀ i < n, ∀ level, levels[i]? = some level →
    top.buffer[i]? = some (.ofLevel level side)
  answer : top.updateExist = true ↔
    ∃ i < n, ∃ level, levels[i]? = some level ∧ buffer[i]? ≠ some (.ofLevel level side)

/-- After the exports `lists`, no entry is a level that was exported and is no longer in the book,
and the answer is whether the best levels have changed since the last one. -/
structure TracksBook (n : ℕ) (lists : List (List (OrderBookLevel Price Qty)))
    (levels : List (OrderBookLevel Price Qty))
    (top : BookSide.TopLevels (TopEntry Price Qty side)) : Prop where
  noVanished : ∀ i < n, ∀ old ∈ lists, ∀ level ∈ old,
    top.buffer[i]? = some (.ofLevel level side) → level ∈ levels
  answer : top.updateExist = true ↔ levels.take n ≠ lastLevels lists

omit [LinearOrder Price] [DecidableEq Qty] [Zero Qty] in
theorem Exported.exportsBest {levels : List (OrderBookLevel Price Qty)}
    {top : BookSide.TopLevels (TopEntry Price Qty side)}
    (h : Exported (levels.take n) buffer top) : ExportsBest n levels buffer top := by
  have htake : ∀ {i level}, i < n → levels[i]? = some level →
      ((levels.take n).map (TopEntry.ofLevel · side))[i]? = some (.ofLevel level side) := by
    intro i level hi hlevel
    rw [List.getElem?_map, List.getElem?_take_of_lt hi, hlevel]
    rfl
  constructor
  · intro i hi level hlevel
    have hget := htake hi hlevel
    rw [h.entries, List.getElem?_append_left (List.getElem?_eq_some_iff.mp hget).1]
    exact hget
  · have hprefix : (levels.take n).map (TopEntry.ofLevel · side) <+: buffer ↔
        buffer.take (levels.take n).length = (levels.take n).map (TopEntry.ofLevel · side) := by
      rw [List.prefix_iff_eq_take, List.length_map, eq_comm]
    rw [h.answer, Ne, ← hprefix, List.prefix_iff_getElem?]
    constructor
    · intro hdiffers
      push Not at hdiffers
      obtain ⟨i, hi, hne⟩ := hdiffers
      have hlt := hi
      rw [List.length_map, List.length_take, Nat.lt_min] at hlt
      obtain ⟨hin, hlength⟩ := hlt
      refine ⟨i, hin, levels[i], List.getElem?_eq_getElem hlength, ?_⟩
      rw [List.getElem_map, List.getElem_take] at hne
      exact hne
    · rintro ⟨i, hi, level, hlevel, hne⟩ hall
      obtain ⟨hlt, heq⟩ := List.getElem?_eq_some_iff.mp (htake hi hlevel)
      rw [hall i hlt, heq] at hne
      exact hne rfl

omit [LinearOrder Price] [DecidableEq Qty] in
/-- Behind the levels `old` there is no level, so that `levels`, which are no fewer, change nothing
only if they are the same. -/
theorem take_entries_eq_iff {old levels : List (OrderBookLevel Price Qty)}
    {rest : List (TopEntry Price Qty side)} (hrest : HoldsNoLevel rest)
    (hlevels : ∀ level ∈ levels, level.qty ≠ 0) (hle : old.length ≤ levels.length) :
    (old.map (TopEntry.ofLevel · side) ++ rest).take levels.length =
      levels.map (TopEntry.ofLevel · side) ↔ levels = old := by
  have hold : (old.map (TopEntry.ofLevel · side)).length ≤ levels.length := by
    rw [List.length_map]
    exact hle
  constructor
  · intro heq
    rw [List.take_append, List.take_of_length_le hold] at heq
    have hnil : rest.take (levels.length - (old.map (TopEntry.ofLevel · side)).length) = [] := by
      apply List.eq_nil_iff_forall_not_mem.mpr
      intro entry hentry
      have hmem := heq ▸ List.mem_append_right _ hentry
      obtain ⟨level, hlevel, rfl⟩ := List.mem_map.mp hmem
      have hzero := hrest _ (List.mem_of_mem_take hentry)
      rw [TopEntry.qty_ofLevel] at hzero
      exact hlevels level hlevel hzero
    rw [hnil, List.append_nil] at heq
    exact ((TopEntry.ofLevel_injective side).list_map heq).symm
  · rintro rfl
    exact List.take_left' (List.length_map ..)

omit [DecidableEq Qty] in
/-- As long as no export finds fewer levels than an earlier one, a buffer that held no level at
first tracks the book. -/
theorem ExportInv.tracksBook (h : ExportInv buffer calls s lists) (hnone : HoldsNoLevel buffer)
    (hshrink : NeverShrinks (lists ++ [(s.book.sortedLevels side).take n]))
    {calls' : List (ExportCall Price Qty)} {s' : TopExporter Price Qty side}
    (h' : ExportInv buffer calls' s' (lists ++ [(s.book.sortedLevels side).take n]))
    (hexported : Exported ((s.book.sortedLevels side).take n) s.top.buffer s'.top) :
    TracksBook n lists (s.book.sortedLevels side) s'.top := by
  obtain ⟨hlists, hle⟩ := hshrink.concat
  have hdrop : ∀ k, HoldsNoLevel (buffer.drop k) :=
    fun k entry hentry => hnone entry (List.mem_of_mem_drop hentry)
  constructor
  · intro i _ old hold level hlevel hget
    have hmem := List.mem_of_getElem? hget
    rw [h'.entries hshrink, lastLevels_concat] at hmem
    rcases List.mem_append.mp hmem with hmap | hbehind
    · obtain ⟨l, hl, heq⟩ := List.mem_map.mp hmap
      rw [← TopEntry.ofLevel_injective side heq]
      exact List.mem_of_mem_take hl
    · -- behind the levels nothing was written
      have hzero := hdrop _ _ hbehind
      rw [TopEntry.qty_ofLevel] at hzero
      exact absurd hzero (h.levels old hold level hlevel)
  · have hnew := h'.levels _ (List.mem_append_right _ (List.mem_singleton_self _))
    rw [hexported.answer, h.entries hlists]
    exact not_congr (take_entries_eq_iff (hdrop _) hnew hle)

/-- **Exporting the best levels**: after any calls on a new book and exports to a buffer of at least
`n`, an export puts the `n` best levels of the book into the buffer, and answers whether one of them
was not there.  As long as no export finds fewer levels than an earlier one, a buffer that held no
level at first holds no level that has left the book, and the answer is whether the `n` best levels
have changed since the last export. -/
theorem topLevels_exported (side : Side) {maxLevel n : ℕ} (hlevel : 1 ≤ maxLevel)
    (buffer : List (TopEntry Price Qty side)) (hn : n ≤ buffer.length) (maxValidLvl : ℕ)
    (calls : List (ExportCall Price Qty)) (c : ExportCall Price Qty) (hc : c.IsExport)
    (h : (exportMachine Price Qty side n).Legal
      (some ⟨.new maxLevel, { buffer, maxValidLvl }⟩) (calls ++ [c])) :
    let s₀ : Option (TopExporter Price Qty side) := some ⟨.new maxLevel, { buffer, maxValidLvl }⟩
    ∃ s s', (exportMachine Price Qty side n).final s₀ calls = some s ∧ s.run n c = some s' ∧
      IsSorted side (calls.foldl ExportCall.reference fun _ => 0) (s.book.sortedLevels side) ∧
      s'.book = s.book ∧ ExportsBest n (s.book.sortedLevels side) s.top.buffer s'.top ∧
      (HoldsNoLevel buffer →
        NeverShrinks ((exportMachine Price Qty side n).trace s₀ (calls ++ [c])) →
        TracksBook n ((exportMachine Price Qty side n).trace s₀ calls) (s.book.sortedLevels side)
          s'.top) := by
  intro s₀
  rw [Machine.Legal, Machine.allSteps_append, Machine.allSteps_cons] at h
  obtain ⟨hcalls, henabled, -⟩ := h
  obtain ⟨s, hs, hinv⟩ := exportInv_final hlevel hn maxValidLvl hcalls
  rw [hs] at henabled
  obtain ⟨s', hs', hbook, hexported, hemits⟩ :=
    run_export hinv.represents (hinv.length ▸ hn) hc henabled
  refine ⟨s, s', hs, hs', hinv.represents.isSorted side, hbook, hexported.exportsBest, ?_⟩
  intro hnone hshrink
  rw [Machine.trace_concat, hs, hemits] at hshrink
  exact hinv.tracksBook hnone hshrink (hinv.export hn hc hbook hexported) hexported

end Machine

/-- A buffer of two. -/
def twoBids : List (TopEntry ℕ ℕ .bid) := [(⟨0, 0⟩ : BestBid ℕ ℕ), (⟨0, 0⟩ : BestBid ℕ ℕ)]

/-- A new book, and the buffer for its bids. -/
def newExporter : Option (TopExporter ℕ ℕ .bid) :=
  some ⟨.new 10, { buffer := twoBids, maxValidLvl := 0 }⟩

/-- Two bids are added, with an export after each. -/
def twoAdded : List (ExportCall ℕ ℕ) :=
  [.book (.addBidOrder 100 1), .updateTopN, .book (.addBidOrder 99 2)]

theorem topLevels_exported_twoAdded :
    ∃ s s', (exportMachine ℕ ℕ .bid 2).final newExporter twoAdded = some s ∧
      s.run 2 .updateTopN = some s' ∧
      TracksBook 2 ((exportMachine ℕ ℕ .bid 2).trace newExporter twoAdded)
        (s.book.sortedLevels .bid) s'.top := by
  have hnone : HoldsNoLevel twoBids := by
    unfold HoldsNoLevel
    decide
  have htrace : (exportMachine ℕ ℕ .bid 2).trace newExporter (twoAdded ++ [.updateTopN]) =
      [[⟨100, 1⟩], [⟨100, 1⟩, ⟨99, 2⟩]] := by
    decide +kernel
  have hshrink : NeverShrinks ((exportMachine ℕ ℕ .bid 2).trace newExporter
      (twoAdded ++ [.updateTopN])) := by
    rw [htrace]
    unfold NeverShrinks
    decide
  obtain ⟨s, s', hs, hs', -, -, -, htracks⟩ := topLevels_exported .bid (by decide : 1 ≤ 10)
    twoBids (by decide : 2 ≤ 2) 0 twoAdded .updateTopN trivial ⟨nofun, nofun, nofun, nofun, trivial⟩
  exact ⟨s, s', hs, hs', htracks hnone hshrink⟩

/-- Two bids are added and exported, and the lower one is removed. -/
def lowerRemoved : List (ExportCall ℕ ℕ) :=
  [.book (.addBidOrder 100 1), .book (.addBidOrder 99 2), .updateTopN, .book (.addBidOrder 99 0)]

/-- The next export leaves the removed bid in the buffer, and answers that nothing has changed. -/
theorem lowerRemoved_stays :
    ∃ s s', (exportMachine ℕ ℕ .bid 2).final newExporter lowerRemoved = some s ∧
      s.run 2 .updateTopN = some s' ∧
      ¬ TracksBook 2 ((exportMachine ℕ ℕ .bid 2).trace newExporter lowerRemoved)
        (s.book.sortedLevels .bid) s'.top := by
  have htrace : (exportMachine ℕ ℕ .bid 2).trace newExporter lowerRemoved =
      [[⟨100, 1⟩, ⟨99, 2⟩]] := by
    decide +kernel
  have hlevels : ((exportMachine ℕ ℕ .bid 2).final newExporter lowerRemoved).map
      (·.book.sortedLevels .bid) = some [⟨100, 1⟩] := by
    decide +kernel
  have htop : (((exportMachine ℕ ℕ .bid 2).final newExporter lowerRemoved).bind
      (·.run 2 .updateTopN)).map (·.top) = some {
        buffer := [(⟨100, 1⟩ : BestBid ℕ ℕ), (⟨99, 2⟩ : BestBid ℕ ℕ)]
        maxValidLvl := 1 } := by
    decide +kernel
  obtain ⟨s, hs, hslevels⟩ := Option.map_eq_some_iff.mp hlevels
  rw [hs] at htop
  obtain ⟨s', hs', hstop⟩ := Option.map_eq_some_iff.mp htop
  refine ⟨s, s', hs, hs', ?_⟩
  rintro ⟨hgone, -⟩
  rw [htrace, hslevels, hstop] at hgone
  have hmem := hgone 1 (by decide) _ (List.mem_singleton_self _) ⟨99, 2⟩ (by decide) rfl
  exact absurd hmem (by decide)

end CryptobotAlgo.Aos
