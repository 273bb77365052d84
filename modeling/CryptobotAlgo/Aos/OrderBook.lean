import CryptobotAlgo.Aos.MemPool
import CryptobotAlgo.Aos.Types
import Mathlib.Order.Lattice

/-!
# The order book

Each side of the book keeps its levels in two containers that share the level objects: a hash map
from the price to the level, and an intrusive AVL tree ordered by price, best first.  The levels
live in a memory pool.

The tree is modelled by its in-order traversal.  The two sides have the same text up to the names of
the members and the comparison, `std::greater` for bids and `std::less` for asks, so the operations
are written once for a `BookSide` with the comparison as a parameter.  An operation returns `none`
where the code would use a null or a dangling pointer.
-/

namespace CryptobotAlgo.Aos

open Common

variable {Price Qty : Type}

/-- `OrderBookLevel`; the hook of the tree is not modelled. -/
structure OrderBookLevel (Price Qty : Type) where
  price : Price
  qty : Qty
  deriving DecidableEq, Repr

/-- The best level of each side. -/
structure BBOFull (Price Qty : Type) where
  bidPrice : Price
  bidQty : Qty
  askPrice : Price
  askQty : Qty
  deriving DecidableEq, Repr

/-- `BestBid`. -/
structure BestBid (Price Qty : Type) where
  bidPrice : Price
  bidQty : Qty
  deriving DecidableEq, Repr

/-- `BestAsk`. -/
structure BestAsk (Price Qty : Type) where
  askPrice : Price
  askQty : Qty
  deriving DecidableEq, Repr

/-- The members that one side of the book consists of: `price_to_…_level_`, `…_levels_` and
`…_lvl_memory_pool_`. -/
structure BookSide (Price Qty : Type) where
  priceToLevel : Price → Option Ptr := fun _ => none
  levels : List Ptr := []
  pool : MemoryPoolThreadSafety (OrderBookLevel Price Qty)

namespace BookSide

section Tree

variable (less : Price → Price → Prop) [DecidableRel less]
  (objects : Ptr → Option (OrderBookLevel Price Qty))

/-- `insert_unique(*ptr)`, for a level with the price `price`. -/
def insertUnique (price : Price) (ptr : Ptr) : List Ptr → Option (List Ptr)
  | [] => some [ptr]
  | q :: qs => do
    let level ← objects q
    if less price level.price then
      return ptr :: q :: qs
    else if less level.price price then
      return q :: (← insertUnique price ptr qs)
    else
      -- an equivalent level is in the tree, so `ptr` is not inserted
      return q :: qs

/-- `erase(*ptr)`, for a level with the price `price`: every equivalent level leaves the tree. -/
def eraseEquivalent (price : Price) : List Ptr → Option (List Ptr)
  | [] => some []
  | q :: qs => do
    let level ← objects q
    let rest ← eraseEquivalent price qs
    if less level.price price ∨ less price level.price then
      return q :: rest
    else
      return rest

end Tree

section Operations

variable [DecidableEq Price] (less : Price → Price → Prop) [DecidableRel less]

/-- `AddBidLevel` and `AddAskLevel`. -/
def addLevel (s : BookSide Price Qty) (price : Price) (qty : Qty) :
    Option (BookSide Price Qty) :=
  match s.priceToLevel price with
  | some ptr => do
    -- the level is changed in place, under the tree
    return { s with pool := ← s.pool.write ptr { price, qty } }
  | none => do
    let (ptr, pool) ← s.pool.allocate { price, qty }
    return {
      priceToLevel := Function.update s.priceToLevel price (some ptr)
      levels := ← insertUnique less pool.objects price ptr s.levels
      pool }

/-- `RemoveBidLevel` and `RemoveAskLevel`. -/
def removeLevel (s : BookSide Price Qty) (price : Price) : Option (BookSide Price Qty) :=
  match s.priceToLevel price with
  | none => some s
  | some ptr => do
    -- the tree is searched while the level still lives
    let level ← s.pool.objects ptr
    return {
      priceToLevel := Function.update s.priceToLevel price none
      levels := ← eraseEquivalent less s.pool.objects level.price s.levels
      pool := ← s.pool.deallocate ptr }

/-- The loop of `Clear`: the first level leaves the tree and is destroyed, until none is left. -/
def freeLevels (pool : MemoryPoolThreadSafety (OrderBookLevel Price Qty)) :
    List Ptr → Option (MemoryPoolThreadSafety (OrderBookLevel Price Qty))
  | [] => some pool
  | node :: levels => do freeLevels (← pool.deallocate node) levels

/-- One side of `Clear`. -/
def clear (s : BookSide Price Qty) : Option (BookSide Price Qty) := do
  return { priceToLevel := fun _ => none, levels := [], pool := ← freeLevels s.pool s.levels }

end Operations

/-- `UpdateTopBid` and its like: `old` becomes what `read` takes from the first level, if there is
one, and the answer tells whether that is a change. -/
def updateTop {A : Type} [DecidableEq A] (s : BookSide Price Qty)
    (read : OrderBookLevel Price Qty → A) (old : A) : Option (Bool × A) :=
  match s.levels.head? with
  | none => some (false, old)
  | some ptr => do
    let first ← s.pool.objects ptr
    if old ≠ read first then
      return (true, read first)
    else
      return (false, old)

/-- The buffer and `max_valid_lvl` of a call of `UpdateTopNBids` or its like, and the answer. -/
structure TopLevels (A : Type) where
  buffer : List A
  maxValidLvl : ℕ
  updateExist : Bool := false
  deriving DecidableEq, Repr

section TopN

variable {A : Type} [DecidableEq A] (read : OrderBookLevel Price Qty → A)

/-- The loop of `UpdateTopNBids` and its like over the levels `it`, with the index `i`. -/
def exportFrom (objects : Ptr → Option (OrderBookLevel Price Qty)) (n : ℕ) :
    (it : List Ptr) → (i : ℕ) → TopLevels A → Option (TopLevels A)
  | [], _, top => some top
  | ptr :: it, i, top =>
    if i < n then do
      let level ← objects ptr
      let entry ← top.buffer[i]?
      if entry ≠ read level then
        exportFrom objects n it (i + 1) {
          buffer := top.buffer.set i (read level)
          maxValidLvl := i
          updateExist := true }
      else
        exportFrom objects n it (i + 1) top
    else
      some top

/-- `UpdateTop5Bids` and `UpdateTop5Asks`, where the buffer is an array of `5`. -/
def updateTop5 (s : BookSide Price Qty) (buffer : List A) (maxValidLvl : ℕ) :
    Option (TopLevels A) :=
  exportFrom read s.pool.objects 5 s.levels 0 { buffer, maxValidLvl }

/-- `UpdateTopNBids` and `UpdateTopNAsks`: a buffer that is too small is left alone. -/
def updateTopN (s : BookSide Price Qty) (n : ℕ) (buffer : List A) (maxValidLvl : ℕ) :
    Option (TopLevels A) :=
  if buffer.length < n then
    some { buffer, maxValidLvl }
  else
    exportFrom read s.pool.objects n s.levels 0 { buffer, maxValidLvl }

end TopN

end BookSide

/-- `OrderBookInner`. -/
structure OrderBookInner (Price Qty : Type) where
  bids : BookSide Price Qty
  asks : BookSide Price Qty

namespace OrderBookInner

/-- The constructor. -/
def new (maxLevel : ℕ) : OrderBookInner Price Qty where
  bids := { pool := { poolSize := maxLevel } }
  asks := { pool := { poolSize := maxLevel } }

def clear (b : OrderBookInner Price Qty) : Option (OrderBookInner Price Qty) := do
  return { bids := ← b.bids.clear, asks := ← b.asks.clear }

variable [LinearOrder Price]

def addBidLevel (b : OrderBookInner Price Qty) (price : Price) (qty : Qty) :
    Option (OrderBookInner Price Qty) := do
  return { b with bids := ← b.bids.addLevel (· > ·) price qty }

def addAskLevel (b : OrderBookInner Price Qty) (price : Price) (qty : Qty) :
    Option (OrderBookInner Price Qty) := do
  return { b with asks := ← b.asks.addLevel (· < ·) price qty }

def removeBidLevel (b : OrderBookInner Price Qty) (price : Price) :
    Option (OrderBookInner Price Qty) := do
  return { b with bids := ← b.bids.removeLevel (· > ·) price }

def removeAskLevel (b : OrderBookInner Price Qty) (price : Price) :
    Option (OrderBookInner Price Qty) := do
  return { b with asks := ← b.asks.removeLevel (· < ·) price }

omit [LinearOrder Price] in
/-- `GetBBO`; the inner `none` is the answer `{false, {}}`. -/
def getBBO (b : OrderBookInner Price Qty) : Option (Option (BBOFull Price Qty)) :=
  match b.bids.levels.head?, b.asks.levels.head? with
  | some bid, some ask => do
    let bidLevel ← b.bids.pool.objects bid
    let askLevel ← b.asks.pool.objects ask
    return some {
      bidPrice := bidLevel.price
      bidQty := bidLevel.qty
      askPrice := askLevel.price
      askQty := askLevel.qty }
  | _, _ => some none

variable [DecidableEq Qty]

def updateTopBid (b : OrderBookInner Price Qty) (bid : BestBid Price Qty) :
    Option (Bool × BestBid Price Qty) :=
  b.bids.updateTop (fun first => ⟨first.price, first.qty⟩) bid

omit [DecidableEq Qty] in
def updateTopBidPrice (b : OrderBookInner Price Qty) (bidPriceOld : Price) :
    Option (Bool × Price) :=
  b.bids.updateTop (fun first => first.price) bidPriceOld

def updateTopAsk (b : OrderBookInner Price Qty) (ask : BestAsk Price Qty) :
    Option (Bool × BestAsk Price Qty) :=
  b.asks.updateTop (fun first => ⟨first.price, first.qty⟩) ask

omit [DecidableEq Qty] in
def updateTopAskPrice (b : OrderBookInner Price Qty) (askPriceOld : Price) :
    Option (Bool × Price) :=
  b.asks.updateTop (fun first => first.price) askPriceOld

def updateTop5Bids (b : OrderBookInner Price Qty) (array5Bids : List (BestBid Price Qty))
    (maxValidLvl : ℕ) : Option (BookSide.TopLevels (BestBid Price Qty)) :=
  b.bids.updateTop5 (fun it => ⟨it.price, it.qty⟩) array5Bids maxValidLvl

def updateTop5Asks (b : OrderBookInner Price Qty) (array5Asks : List (BestAsk Price Qty))
    (maxValidLvl : ℕ) : Option (BookSide.TopLevels (BestAsk Price Qty)) :=
  b.asks.updateTop5 (fun it => ⟨it.price, it.qty⟩) array5Asks maxValidLvl

def updateTopNBids (b : OrderBookInner Price Qty) (n : ℕ) (bids : List (BestBid Price Qty))
    (maxValidLvl : ℕ) : Option (BookSide.TopLevels (BestBid Price Qty)) :=
  b.bids.updateTopN (fun it => ⟨it.price, it.qty⟩) n bids maxValidLvl

def updateTopNAsks (b : OrderBookInner Price Qty) (n : ℕ) (asks : List (BestAsk Price Qty))
    (maxValidLvl : ℕ) : Option (BookSide.TopLevels (BestAsk Price Qty)) :=
  b.asks.updateTopN (fun it => ⟨it.price, it.qty⟩) n asks maxValidLvl

end OrderBookInner

/-- `OrderBook`. -/
structure OrderBook (Price Qty : Type) where
  inner : OrderBookInner Price Qty

namespace OrderBook

/-- The constructor. -/
def new (maxLevel : ℕ) : OrderBook Price Qty where
  inner := .new maxLevel

def clear (b : OrderBook Price Qty) : Option (OrderBook Price Qty) := do
  return { inner := ← b.inner.clear }

def getBBO (b : OrderBook Price Qty) : Option (Option (BBOFull Price Qty)) := b.inner.getBBO

variable [LinearOrder Price] [DecidableEq Qty] [Zero Qty]

/-- `AddBidOrder`: a zero quantity removes the level. -/
def addBidOrder (b : OrderBook Price Qty) (price : Price) (qty : Qty) :
    Option (OrderBook Price Qty) := do
  if qty = 0 then
    return { inner := ← b.inner.removeBidLevel price }
  else
    return { inner := ← b.inner.addBidLevel price qty }

/-- `AddAskOrder`. -/
def addAskOrder (b : OrderBook Price Qty) (price : Price) (qty : Qty) :
    Option (OrderBook Price Qty) := do
  if qty = 0 then
    return { inner := ← b.inner.removeAskLevel price }
  else
    return { inner := ← b.inner.addAskLevel price qty }

omit [Zero Qty] in
def updateTopBid (b : OrderBook Price Qty) (bid : BestBid Price Qty) :
    Option (Bool × BestBid Price Qty) :=
  b.inner.updateTopBid bid

omit [Zero Qty] [DecidableEq Qty] in
def updateTopBidPrice (b : OrderBook Price Qty) (bidPriceOld : Price) : Option (Bool × Price) :=
  b.inner.updateTopBidPrice bidPriceOld

omit [Zero Qty] in
def updateTopAsk (b : OrderBook Price Qty) (ask : BestAsk Price Qty) :
    Option (Bool × BestAsk Price Qty) :=
  b.inner.updateTopAsk ask

omit [Zero Qty] [DecidableEq Qty] in
def updateTopAskPrice (b : OrderBook Price Qty) (askPriceOld : Price) : Option (Bool × Price) :=
  b.inner.updateTopAskPrice askPriceOld

omit [Zero Qty] in
def updateTop5Bids (b : OrderBook Price Qty) (array5Bids : List (BestBid Price Qty))
    (maxValidLvl : ℕ) : Option (BookSide.TopLevels (BestBid Price Qty)) :=
  b.inner.updateTop5Bids array5Bids maxValidLvl

omit [Zero Qty] in
def updateTop5Asks (b : OrderBook Price Qty) (array5Asks : List (BestAsk Price Qty))
    (maxValidLvl : ℕ) : Option (BookSide.TopLevels (BestAsk Price Qty)) :=
  b.inner.updateTop5Asks array5Asks maxValidLvl

omit [Zero Qty] in
def updateTopNBids (b : OrderBook Price Qty) (n : ℕ) (bids : List (BestBid Price Qty))
    (maxValidLvl : ℕ) : Option (BookSide.TopLevels (BestBid Price Qty)) :=
  b.inner.updateTopNBids n bids maxValidLvl

omit [Zero Qty] in
def updateTopNAsks (b : OrderBook Price Qty) (n : ℕ) (asks : List (BestAsk Price Qty))
    (maxValidLvl : ℕ) : Option (BookSide.TopLevels (BestAsk Price Qty)) :=
  b.inner.updateTopNAsks n asks maxValidLvl

end OrderBook

/-- What the order book reads from an event. -/
class OrderBookEventInterface (E : Type) (Price Qty : outParam Type) where
  bids : E → List (OrderBookLevelRaw Price Qty)
  asks : E → List (OrderBookLevelRaw Price Qty)

/-- `OrderBookEventListener`; its handlers run one after the other on a strand. -/
structure OrderBookEventListener (Price Qty : Type) where
  orderBook : OrderBook Price Qty

namespace OrderBookEventListener

/-- The constructor. -/
def new (maxLevel : ℕ) : OrderBookEventListener Price Qty where
  orderBook := .new maxLevel

/-- `ProcessClear`. -/
def processClear (l : OrderBookEventListener Price Qty) :
    Option (OrderBookEventListener Price Qty) := do
  return { orderBook := ← l.orderBook.clear }

/-- `ProcessEvent`: the bids in order, then the asks. -/
def processEvent {E : Type} [OrderBookEventInterface E Price Qty] [LinearOrder Price]
    [DecidableEq Qty] [Zero Qty] (l : OrderBookEventListener Price Qty) (ptr : E) :
    Option (OrderBookEventListener Price Qty) := do
  let book ← (OrderBookEventInterface.bids ptr).foldlM
    (fun book it => book.addBidOrder it.price it.qty) l.orderBook
  let book ← (OrderBookEventInterface.asks ptr).foldlM
    (fun book it => book.addAskOrder it.price it.qty) book
  return { orderBook := book }

end OrderBookEventListener

end CryptobotAlgo.Aos
