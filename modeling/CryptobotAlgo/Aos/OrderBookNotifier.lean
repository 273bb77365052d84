import CryptobotAlgo.Aos.OrderBook
import CryptobotAlgo.Machine.Basic

/-!
# The notifiers of the best levels

`OrderBookNotifier` passes its calls on to an order book, and after `OnEvent` it tells its
subscribers, which are notifiers of a best level or of a best price.  The handlers of the book run
on the strand of the book, those of a notifier on the strand of the notifier.

A notifier that is told spawns a coroutine.  The coroutine goes through the strand of the book,
comes back, reads the best level into the cache of the notifier, and calls the callback if that has
changed.  Between the read and the callback it is not suspended.
-/

namespace CryptobotAlgo.Aos

variable {Price Qty : Type}

/-- The cache of a `BestBidNotifier`, a `BestAskNotifier`, a `BestBidPriceNotifier` or a
`BestAskPriceNotifier`. -/
inductive CachedTop (Price Qty : Type)
  | bestBid (bid : BestBid Price Qty)
  | bestAsk (ask : BestAsk Price Qty)
  | bestBidPrice (price : Price)
  | bestAskPrice (price : Price)
  deriving DecidableEq, Repr

/-- The `co_await` of each notifier, which reads into its cache. -/
def OrderBook.updateTop [LinearOrder Price] [DecidableEq Qty] (b : OrderBook Price Qty) :
    CachedTop Price Qty → Option (Bool × CachedTop Price Qty)
  | .bestBid bid => (b.updateTopBid bid).map (Prod.map id .bestBid)
  | .bestAsk ask => (b.updateTopAsk ask).map (Prod.map id .bestAsk)
  | .bestBidPrice price => (b.updateTopBidPrice price).map (Prod.map id .bestBidPrice)
  | .bestAskPrice price => (b.updateTopAskPrice price).map (Prod.map id .bestAskPrice)

/-- A handler on the strand of the book; `dispatch i` is that of a coroutine of the notifier `i`. -/
inductive BookHandler (ι E : Type)
  | processEvent (ptr : E)
  | processClear
  | dispatch (i : ι)
  deriving DecidableEq, Repr

/-- A handler on the strand of a notifier: a coroutine starts, or it comes back from the strand of
the book. -/
inductive NotifierHandler
  | start
  | resume
  deriving DecidableEq, Repr

/-- The book, the notifiers `ι`, and what is pending. -/
structure NotifierSystem (ι E Price Qty : Type) where
  /-- the order book; `none` after a misuse of memory -/
  book : Option (OrderBookEventListener Price Qty)
  bookStrand : List (BookHandler ι E) := []
  /-- for each call of `OnEvent`, the subscribers that it still has to tell -/
  notifying : List (List ι) := []
  strand : ι → List NotifierHandler := fun _ => []
  cache : ι → CachedTop Price Qty

/-- A step of the callers or of the thread pool. -/
inductive NotifierEvent (ι E : Type)
  /-- `OnEvent(ptr)` is called, and posts the event -/
  | onEvent (ptr : E)
  /-- a call of `OnEvent` that has the subscribers `i :: rest` left tells `i` -/
  | notify (i : ι) (rest : List ι)
  /-- `Clear()` is called -/
  | clear
  /-- the strand of the book runs its first handler -/
  | runBook
  /-- the strand of the notifier `i` runs a handler; its first one, or any other -/
  | runNotifier (i : ι) (handler : NotifierHandler)
  deriving DecidableEq, Repr

/-- The callback of the notifier `i` is called. -/
structure Callback (ι Price Qty : Type) where
  notifier : ι
  new : CachedTop Price Qty
  deriving DecidableEq, Repr

namespace NotifierSystem

variable {ι E : Type} [DecidableEq ι] [LinearOrder Price] [DecidableEq Qty]

/-- A coroutine has come back: it reads, and calls back. -/
def readTop (s : NotifierSystem ι E Price Qty) (i : ι) :
    NotifierSystem ι E Price Qty × List (Callback ι Price Qty) :=
  match s.book.bind fun l => l.orderBook.updateTop (s.cache i) with
  | none => (s, [])
  | some (updateExist, new) =>
    ({ s with cache := Function.update s.cache i new }, if updateExist then [⟨i, new⟩] else [])

variable [Zero Qty] [OrderBookEventInterface E Price Qty]

/-- The strand of the book runs a handler, which leaves the strand. -/
def runBookHandler (s : NotifierSystem ι E Price Qty) :
    BookHandler ι E → NotifierSystem ι E Price Qty
  | .processEvent ptr => { s with book := s.book.bind fun l => l.processEvent ptr }
  | .processClear => { s with book := s.book.bind fun l => l.processClear }
  | .dispatch i => { s with strand := Function.update s.strand i (s.strand i ++ [.resume]) }

def step (subscribers : List ι) (s : NotifierSystem ι E Price Qty) :
    NotifierEvent ι E → NotifierSystem ι E Price Qty × List (Callback ι Price Qty)
  | .onEvent ptr =>
    ({ s with
      bookStrand := s.bookStrand ++ [.processEvent ptr]
      notifying := subscribers :: s.notifying }, [])
  | .notify i rest =>
    ({ s with
      notifying := rest :: s.notifying.erase (i :: rest)
      strand := Function.update s.strand i (s.strand i ++ [.start]) }, [])
  | .clear => ({ s with bookStrand := s.bookStrand ++ [.processClear] }, [])
  | .runBook =>
    match s.bookStrand with
    | [] => (s, [])
    | handler :: rest => ({ s with bookStrand := rest }.runBookHandler handler, [])
  | .runNotifier i .start =>
    ({ s with
      strand := Function.update s.strand i ((s.strand i).erase .start)
      bookStrand := s.bookStrand ++ [.dispatch i] }, [])
  | .runNotifier i .resume =>
    { s with strand := Function.update s.strand i ((s.strand i).erase .resume) }.readTop i

/-- A new book with its notifiers, whose caches are not initialised. -/
def new (maxLevel : ℕ) (cache : ι → CachedTop Price Qty) : NotifierSystem ι E Price Qty where
  book := some (.new maxLevel)
  cache := cache

/-- A handler runs once it is pending, and an `OnEvent` tells the subscribers that it has left. -/
def Enabled (s : NotifierSystem ι E Price Qty) : NotifierEvent ι E → Prop
  | .onEvent _ => True
  | .notify i rest => i :: rest ∈ s.notifying
  | .clear => True
  | .runBook => s.bookStrand ≠ []
  | .runNotifier i handler => handler ∈ s.strand i

end NotifierSystem

/-- The calls of `OnEvent` and `Clear`, from any number of threads, and the handlers. -/
def notifierMachine {ι E : Type} [DecidableEq ι] [LinearOrder Price] [DecidableEq Qty] [Zero Qty]
    [OrderBookEventInterface E Price Qty] (subscribers : List ι) :
    Machine (NotifierSystem ι E Price Qty) (NotifierEvent ι E) (Callback ι Price Qty) where
  enabled := NotifierSystem.Enabled
  step := NotifierSystem.step subscribers

end CryptobotAlgo.Aos
