import CryptobotAlgo.Aoe.OrderManager

/-!
# The Bybit order events
-/

namespace CryptobotAlgo.Aoe.Bybit

inductive Category
  | kInvalid
  | kSpot
  | kLinear
  | kInverse
  deriving DecidableEq, Repr

inductive OrderStatus
  | kInvalid
  | kNew
  | kPartiallyFilled
  | kUntriggered
  | kRejected
  | kPartiallyFilledCanceled
  | kFilled
  | kCancelled
  | kTriggered
  | kDeactivated
  deriving DecidableEq, Repr

instance : OrderStatusEnum OrderStatus := ⟨.kInvalid⟩

/-- The classes that implement `OrderEventInterface`. -/
inductive OrderEventClass
  | default
  | new
  | partiallyFilled
  | untriggered
  | rejected
  | partiallyFilledCancelled
  | filled
  | cancelled
  | triggered
  | deactivated
  deriving DecidableEq, Repr

/-- An object of one of the event classes. -/
structure OrderEvent (K : Type) where
  eventClass : OrderEventClass
  orderId : UInt64
  price : K
  leavesQty : K
  deriving DecidableEq, Repr

variable {K : Type}

/-- The `Accept` of each class. -/
def OrderEvent.accept (e : OrderEvent K) : List (OrderMutation Category OrderStatus K) :=
  match e.eventClass with
  | .default => []
  | .new => [.updateStatus e.orderId .kNew .kNone]
  | .partiallyFilled =>
    [.updateStatus e.orderId .kPartiallyFilled .kNone, .updateState e.orderId e.price e.leavesQty]
  | .untriggered => [.updateStatus e.orderId .kUntriggered .kNone]
  | .rejected => [.remove e.orderId]
  | .partiallyFilledCancelled => [.remove e.orderId]
  | .filled => [.remove e.orderId]
  | .cancelled => [.remove e.orderId]
  | .triggered => [.remove e.orderId]
  | .deactivated => [.remove e.orderId]

instance : OrderEventInterface (OrderEvent K) Category OrderStatus K where
  orderId := OrderEvent.orderId
  accept := OrderEvent.accept

end CryptobotAlgo.Aoe.Bybit
