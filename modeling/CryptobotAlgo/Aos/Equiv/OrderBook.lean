import CryptobotAlgo.Aos.Equiv.BookSide
import CryptobotAlgo.LastWrite
import CryptobotAlgo.Machine.Refinement
import Mathlib.Algebra.GroupWithZero.Nat
import Mathlib.Order.Bounds.Basic

/-!
# The order book keeps a map from sides and prices to quantities

`OrderBook.Represents` says that the two sides of a book stand for one map `ref` from sides and
prices to quantities.  `AddBidOrder` and `AddAskOrder` write one value of it, `Clear` resets it, and
`GetBBO` reads its best levels (`OrderBook.Represents.bboCorrect`).

`orderBook_refines` is the result for a whole sequence of calls on a new book: it stands for the
last-write-wins map of the calls.  `ProcessEvent` makes the writes that an event carries
(`OrderBookEventListener.processEvent_spec`).
-/

namespace CryptobotAlgo.Aos

open LastWrite

variable {Price Qty : Type}

/-! ### The book -/

/-- The two sides of a book. -/
inductive Side
  | bid
  | ask
  deriving DecidableEq, Repr

theorem update_same_side [DecidableEq Price] (ref : Side × Price → Qty) (side : Side) (p : Price)
    (q : Qty) : (fun x => Function.update ref (side, p) q (side, x)) =
      Function.update (fun x => ref (side, x)) p q :=
  Function.update_comp_eq_of_injective ref (Prod.mk_right_injective side) p q

theorem update_other_side [DecidableEq Price] {ref : Side × Price → Qty} {side side' : Side}
    (h : side' ≠ side) (p : Price) (q : Qty) :
    (fun x => Function.update ref (side, p) q (side', x)) = fun x => ref (side', x) := by
  ext x
  exact Function.update_of_ne (fun heq => h (congrArg Prod.fst heq)) _ _

variable [LinearOrder Price] [Zero Qty]

namespace OrderBookInner

/-- The book `b` stands for the quantities `ref` on its two sides. -/
structure Represents (b : OrderBookInner Price Qty) (ref : Side × Price → Qty) : Prop where
  bids : b.bids.Represents (· > ·) fun p => ref (.bid, p)
  asks : b.asks.Represents (· < ·) fun p => ref (.ask, p)

theorem represents_new {maxLevel : ℕ} (h : 1 ≤ maxLevel) :
    (OrderBookInner.new maxLevel : OrderBookInner Price Qty).Represents fun _ => 0 :=
  ⟨BookSide.represents_new _ h, BookSide.represents_new _ h⟩

variable {b : OrderBookInner Price Qty} {ref : Side × Price → Qty}

theorem Represents.unique {ref' : Side × Price → Qty} (h : b.Represents ref)
    (h' : b.Represents ref') : ref = ref' := by
  ext ⟨side, p⟩
  cases side with
  | bid => exact congrFun (h.bids.unique h'.bids) p
  | ask => exact congrFun (h.asks.unique h'.asks) p

/-- A change of the bids changes the bid quantities only. -/
theorem Represents.update_bid (h : b.Represents ref) {bids : BookSide Price Qty} {p : Price}
    {q : Qty} (hbids : bids.Represents (· > ·) (Function.update (fun p => ref (.bid, p)) p q)) :
    ({ b with bids } : OrderBookInner Price Qty).Represents (Function.update ref (.bid, p) q) := by
  constructor
  · rw [update_same_side]
    exact hbids
  · rw [update_other_side (by simp)]
    exact h.asks

/-- A change of the asks changes the ask quantities only. -/
theorem Represents.update_ask (h : b.Represents ref) {asks : BookSide Price Qty} {p : Price}
    {q : Qty} (hasks : asks.Represents (· < ·) (Function.update (fun p => ref (.ask, p)) p q)) :
    ({ b with asks } : OrderBookInner Price Qty).Represents (Function.update ref (.ask, p) q) := by
  constructor
  · rw [update_other_side (by simp)]
    exact h.bids
  · rw [update_same_side]
    exact hasks

theorem clear_spec (h : b.Represents ref) :
    ∃ b', b.clear = some b' ∧ b'.Represents fun _ => 0 := by
  obtain ⟨bids, hbids, hbids'⟩ := BookSide.clear_spec h.bids
  obtain ⟨asks, hasks, hasks'⟩ := BookSide.clear_spec h.asks
  refine ⟨⟨bids, asks⟩, ?_, hbids', hasks'⟩
  unfold clear
  rw [hbids, hasks]
  rfl

theorem addBidLevel_spec (h : b.Represents ref) (p : Price) {q : Qty} (hq : q ≠ 0) :
    ∃ b', b.addBidLevel p q = some b' ∧ b'.Represents (Function.update ref (.bid, p) q) := by
  obtain ⟨bids, hbids, hbids'⟩ := BookSide.addLevel_spec h.bids p hq
  refine ⟨{ b with bids }, ?_, h.update_bid hbids'⟩
  unfold addBidLevel
  rw [hbids]
  rfl

theorem addAskLevel_spec (h : b.Represents ref) (p : Price) {q : Qty} (hq : q ≠ 0) :
    ∃ b', b.addAskLevel p q = some b' ∧ b'.Represents (Function.update ref (.ask, p) q) := by
  obtain ⟨asks, hasks, hasks'⟩ := BookSide.addLevel_spec h.asks p hq
  refine ⟨{ b with asks }, ?_, h.update_ask hasks'⟩
  unfold addAskLevel
  rw [hasks]
  rfl

theorem removeBidLevel_spec (h : b.Represents ref) (p : Price) :
    ∃ b', b.removeBidLevel p = some b' ∧ b'.Represents (Function.update ref (.bid, p) 0) := by
  obtain ⟨bids, hbids, hbids'⟩ := BookSide.removeLevel_spec h.bids p
  refine ⟨{ b with bids }, ?_, h.update_bid hbids'⟩
  unfold removeBidLevel
  rw [hbids]
  rfl

theorem removeAskLevel_spec (h : b.Represents ref) (p : Price) :
    ∃ b', b.removeAskLevel p = some b' ∧ b'.Represents (Function.update ref (.ask, p) 0) := by
  obtain ⟨asks, hasks, hasks'⟩ := BookSide.removeLevel_spec h.asks p
  refine ⟨{ b with asks }, ?_, h.update_ask hasks'⟩
  unfold removeAskLevel
  rw [hasks]
  rfl

end OrderBookInner

namespace OrderBook

/-- The book `b` stands for the quantities `ref` on its two sides. -/
def Represents (b : OrderBook Price Qty) (ref : Side × Price → Qty) : Prop := b.inner.Represents ref

theorem represents_new {maxLevel : ℕ} (h : 1 ≤ maxLevel) :
    (OrderBook.new maxLevel : OrderBook Price Qty).Represents fun _ => 0 :=
  OrderBookInner.represents_new h

variable {b : OrderBook Price Qty} {ref : Side × Price → Qty}

/-- The book has a level at the price. -/
def HasLevel (b : OrderBook Price Qty) : Side × Price → Prop
  | (.bid, p) => ∃ ptr, b.inner.bids.priceToLevel p = some ptr
  | (.ask, p) => ∃ ptr, b.inner.asks.priceToLevel p = some ptr

theorem Represents.hasLevel_iff (h : b.Represents ref) (k : Side × Price) :
    b.HasLevel k ↔ ref k ≠ 0 := by
  obtain ⟨side, p⟩ := k
  cases side with
  | bid => exact h.bids.mapped_iff p
  | ask => exact h.asks.mapped_iff p

theorem Represents.unique {ref' : Side × Price → Qty} (h : b.Represents ref)
    (h' : b.Represents ref') : ref = ref' :=
  OrderBookInner.Represents.unique h h'

theorem clear_spec (h : b.Represents ref) :
    ∃ b', b.clear = some b' ∧ b'.Represents fun _ => 0 := by
  obtain ⟨inner, hinner, hinner'⟩ := OrderBookInner.clear_spec h
  refine ⟨⟨inner⟩, ?_, hinner'⟩
  unfold clear
  rw [hinner]
  rfl

variable [DecidableEq Qty]

/-- `AddBidOrder` writes a bid quantity; `0` makes the price absent. -/
theorem addBidOrder_spec (h : b.Represents ref) (p : Price) (q : Qty) :
    ∃ b', b.addBidOrder p q = some b' ∧ b'.Represents (Function.update ref (.bid, p) q) := by
  unfold addBidOrder
  split_ifs with hq
  · subst hq
    obtain ⟨inner, hinner, hinner'⟩ := OrderBookInner.removeBidLevel_spec h p
    refine ⟨⟨inner⟩, ?_, hinner'⟩
    rw [hinner]
    rfl
  · obtain ⟨inner, hinner, hinner'⟩ := OrderBookInner.addBidLevel_spec h p hq
    refine ⟨⟨inner⟩, ?_, hinner'⟩
    rw [hinner]
    rfl

theorem addAskOrder_spec (h : b.Represents ref) (p : Price) (q : Qty) :
    ∃ b', b.addAskOrder p q = some b' ∧ b'.Represents (Function.update ref (.ask, p) q) := by
  unfold addAskOrder
  split_ifs with hq
  · subst hq
    obtain ⟨inner, hinner, hinner'⟩ := OrderBookInner.removeAskLevel_spec h p
    refine ⟨⟨inner⟩, ?_, hinner'⟩
    rw [hinner]
    rfl
  · obtain ⟨inner, hinner, hinner'⟩ := OrderBookInner.addAskLevel_spec h p hq
    refine ⟨⟨inner⟩, ?_, hinner'⟩
    rw [hinner]
    rfl

end OrderBook

/-! ### The best levels -/

/-- `GetBBO` answers with the best levels of `ref` when both sides have one, else it says that
there are none. -/
structure OrderBook.BBOCorrect (b : OrderBook Price Qty) (ref : Side × Price → Qty) : Prop where
  both : (∃ p, ref (.bid, p) ≠ 0) → (∃ p, ref (.ask, p) ≠ 0) →
    ∃ bbo, b.getBBO = some (some bbo) ∧
      IsGreatest { p | ref (.bid, p) ≠ 0 } bbo.bidPrice ∧ bbo.bidQty = ref (.bid, bbo.bidPrice) ∧
      IsLeast { p | ref (.ask, p) ≠ 0 } bbo.askPrice ∧ bbo.askQty = ref (.ask, bbo.askPrice)
  missing : (∀ p, ref (.bid, p) = 0) ∨ (∀ p, ref (.ask, p) = 0) → b.getBBO = some none

theorem OrderBook.Represents.bboCorrect {b : OrderBook Price Qty} {ref : Side × Price → Qty}
    (h : b.Represents ref) : b.BBOCorrect ref := by
  have hbids := h.bids.levels_eq_nil_iff
  have hasks := h.asks.levels_eq_nil_iff
  constructor
  · rintro ⟨pb, hpb⟩ ⟨pa, hpa⟩
    -- both trees have a first level, and it is the best one
    obtain ⟨bid, bids, hbid⟩ := List.exists_cons_of_ne_nil fun hnil => hpb (hbids.mp hnil pb)
    obtain ⟨ask, asks, hask⟩ := List.exists_cons_of_ne_nil fun hnil => hpa (hasks.mp hnil pa)
    have hbid' : b.inner.bids.levels.head? = some bid := by rw [hbid]; rfl
    have hask' : b.inner.asks.levels.head? = some ask := by rw [hask]; rfl
    obtain ⟨p, hp, hp0, hbest⟩ := h.bids.head hbid'
    obtain ⟨q, hq, hq0, hbest'⟩ := h.asks.head hask'
    refine ⟨⟨p, ref (.bid, p), q, ref (.ask, q)⟩, ?_, ⟨hp0, ?_⟩, rfl, ⟨hq0, ?_⟩, rfl⟩
    · simp [getBBO, OrderBookInner.getBBO, hbid', hask', hp, hq]
    · rintro x hx
      rcases hbest x hx with rfl | hlt
      · exact le_rfl
      · exact le_of_lt hlt
    · rintro x hx
      rcases hbest' x hx with rfl | hlt
      · exact le_rfl
      · exact le_of_lt hlt
  · rintro (hzero | hzero)
    · simp [getBBO, OrderBookInner.getBBO, hbids.mpr hzero]
    · simp [getBBO, OrderBookInner.getBBO, hasks.mpr hzero]

/-! ### Sequences of calls -/

namespace OrderBook

/-- A call on the book. -/
inductive Command (Price Qty : Type)
  | addBidOrder (price : Price) (qty : Qty)
  | addAskOrder (price : Price) (qty : Qty)
  | clear
  deriving DecidableEq, Repr

variable [DecidableEq Qty]

/-- One call. -/
def run (b : OrderBook Price Qty) : Command Price Qty → Option (OrderBook Price Qty)
  | .addBidOrder price qty => b.addBidOrder price qty
  | .addAskOrder price qty => b.addAskOrder price qty
  | .clear => b.clear

omit [DecidableEq Qty] in
/-- What a call does to the reference maps: a write, where `0` means absent, or a reset. -/
def reference (ref : Side × Price → Qty) : Command Price Qty → Side × Price → Qty
  | .addBidOrder price qty => Function.update ref (.bid, price) qty
  | .addAskOrder price qty => Function.update ref (.ask, price) qty
  | .clear => fun _ => 0

theorem run_refines :
    Refines (Represents : OrderBook Price Qty → (Side × Price → Qty) → Prop) run reference := by
  intro b ref h c
  cases c with
  | addBidOrder p q => exact addBidOrder_spec h p q
  | addAskOrder p q => exact addAskOrder_spec h p q
  | clear => exact clear_spec h

end OrderBook

/-- **Refinement**: after any sequence of calls on a new book, no pointer has been misused, the two
containers of each side agree and stand for the last-write-wins maps of the calls, and `GetBBO`
returns their best levels. -/
theorem orderBook_refines [DecidableEq Qty] {maxLevel : ℕ} (h : 1 ≤ maxLevel)
    (cs : List (OrderBook.Command Price Qty)) :
    ∃ b, cs.foldlM OrderBook.run (.new maxLevel) = some b ∧
      b.Represents (cs.foldl OrderBook.reference fun _ => 0) ∧
      b.BBOCorrect (cs.foldl OrderBook.reference fun _ => 0) := by
  obtain ⟨b, hb, hrep⟩ := OrderBook.run_refines.foldlM (OrderBook.represents_new h) cs
  exact ⟨b, hb, hrep, hrep.bboCorrect⟩

/-- Two bids and an ask; the lower bid is deleted and the upper one changed. -/
def OrderBook.someCalls : List (OrderBook.Command ℕ ℕ) :=
  [.addBidOrder 99 5, .addBidOrder 100 3, .addAskOrder 101 2, .addBidOrder 99 0,
    .addBidOrder 100 7]

theorem orderBook_refines_someCalls :
    ∃ b, OrderBook.someCalls.foldlM OrderBook.run (.new 1) = some b ∧
      b.Represents (OrderBook.someCalls.foldl OrderBook.reference fun _ => 0) ∧
      b.BBOCorrect (OrderBook.someCalls.foldl OrderBook.reference fun _ => 0) :=
  orderBook_refines (by decide) OrderBook.someCalls

/-! ### Events -/

/-- The writes that an event carries: its bids, then its asks. -/
def eventWrites {E : Type} [OrderBookEventInterface E Price Qty] (ptr : E) :
    List ((Side × Price) × Qty) :=
  (OrderBookEventInterface.bids ptr).map (fun it => ((.bid, it.price), it.qty)) ++
    (OrderBookEventInterface.asks ptr).map fun it => ((.ask, it.price), it.qty)

namespace OrderBook

variable [DecidableEq Qty] {b : OrderBook Price Qty} {ref : Side × Price → Qty}

theorem addBidOrders_spec (h : b.Represents ref) (its : List (OrderBookLevelRaw Price Qty)) :
    ∃ b', its.foldlM (fun b it => b.addBidOrder it.price it.qty) b = some b' ∧
      b'.Represents (writes ref (its.map fun it => ((.bid, it.price), it.qty))) := by
  unfold writes
  rw [List.foldl_map]
  have hstep : Refines Represents (fun b it => b.addBidOrder it.price it.qty)
      fun ref (it : OrderBookLevelRaw Price Qty) => Function.update ref (.bid, it.price) it.qty :=
    fun _ _ hb it => addBidOrder_spec hb it.price it.qty
  exact hstep.foldlM h its

theorem addAskOrders_spec (h : b.Represents ref) (its : List (OrderBookLevelRaw Price Qty)) :
    ∃ b', its.foldlM (fun b it => b.addAskOrder it.price it.qty) b = some b' ∧
      b'.Represents (writes ref (its.map fun it => ((.ask, it.price), it.qty))) := by
  unfold writes
  rw [List.foldl_map]
  have hstep : Refines Represents (fun b it => b.addAskOrder it.price it.qty)
      fun ref (it : OrderBookLevelRaw Price Qty) => Function.update ref (.ask, it.price) it.qty :=
    fun _ _ hb it => addAskOrder_spec hb it.price it.qty
  exact hstep.foldlM h its

end OrderBook

namespace OrderBookEventListener

theorem represents_new {maxLevel : ℕ} (h : 1 ≤ maxLevel) :
    (OrderBookEventListener.new maxLevel : OrderBookEventListener Price Qty).orderBook.Represents
      fun _ => 0 :=
  OrderBook.represents_new h

variable {l : OrderBookEventListener Price Qty} {ref : Side × Price → Qty}

theorem processClear_spec (h : l.orderBook.Represents ref) :
    ∃ l', l.processClear = some l' ∧ l'.orderBook.Represents fun _ => 0 := by
  obtain ⟨b, hb, h'⟩ := OrderBook.clear_spec h
  refine ⟨⟨b⟩, ?_, h'⟩
  unfold processClear
  rw [hb]
  rfl

/-- `ProcessEvent` makes the writes of the event. -/
theorem processEvent_spec [DecidableEq Qty] {E : Type} [OrderBookEventInterface E Price Qty]
    (h : l.orderBook.Represents ref) (ptr : E) :
    ∃ l', l.processEvent ptr = some l' ∧
      l'.orderBook.Represents (writes ref (eventWrites ptr)) := by
  obtain ⟨b₁, hb₁, h₁⟩ := OrderBook.addBidOrders_spec h (OrderBookEventInterface.bids ptr)
  obtain ⟨b₂, hb₂, h₂⟩ := OrderBook.addAskOrders_spec h₁ (OrderBookEventInterface.asks ptr)
  refine ⟨⟨b₂⟩, ?_, ?_⟩
  · unfold processEvent
    rw [hb₁, Option.bind_eq_bind, Option.bind_some, hb₂]
    rfl
  · unfold eventWrites
    rw [writes_append]
    exact h₂

end OrderBookEventListener

end CryptobotAlgo.Aos
