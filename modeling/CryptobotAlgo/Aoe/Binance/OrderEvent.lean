import CryptobotAlgo.Aoe.OrderManager
import Mathlib.Algebra.Group.Defs

/-!
# The Binance order events
-/

namespace CryptobotAlgo.Aoe.Binance

inductive Category
  | kInvalid
  | kSpot
  | kFutures
  deriving DecidableEq, Repr

inductive OrderStatus
  | kInvalid
  | kNew
  | kPendingNew
  | kPartiallyFilled
  | kFilled
  | kCancelled
  | kPendingCancel
  | kRejected
  | kExpired
  | kExpiredInMatch
  deriving DecidableEq, Repr

instance : OrderStatusEnum OrderStatus := ⟨.kInvalid⟩

/-- The classes that implement `OrderEventInterface`. -/
inductive OrderEventClass
  | default
  | new
  | pendingNew
  | partiallyFilled
  | filled
  | cancelled
  | pendingCancel
  | rejected
  | expired
  | expiredInMatch
  deriving DecidableEq, Repr

/-- An object of one of the event classes. -/
structure OrderEvent (K : Type) where
  eventClass : OrderEventClass
  orderId : UInt64
  price : K
  orderQty : K
  cumExecQty : K
  deriving DecidableEq, Repr

variable {K : Type} [Sub K]

/-- `LeavesQtyCalculator::Calculate`. -/
def OrderEvent.leavesQty (e : OrderEvent K) : K := e.orderQty - e.cumExecQty

/-- The `Accept` of each class. -/
def OrderEvent.accept (e : OrderEvent K) : List (OrderMutation Category OrderStatus K) :=
  match e.eventClass with
  | .default => []
  | .new => [.updateStatus e.orderId .kNew .kNone]
  | .pendingNew => [.updateStatus e.orderId .kPendingNew .kNone]
  | .partiallyFilled =>
    [.updateStatus e.orderId .kPartiallyFilled .kNone, .updateState e.orderId e.price e.leavesQty]
  | .filled => [.remove e.orderId]
  | .cancelled => [.remove e.orderId]
  | .pendingCancel => []
  | .rejected => [.remove e.orderId]
  | .expired => [.remove e.orderId]
  | .expiredInMatch => [.remove e.orderId]

instance : OrderEventInterface (OrderEvent K) Category OrderStatus K where
  orderId := OrderEvent.orderId
  accept := OrderEvent.accept

end CryptobotAlgo.Aoe.Binance
