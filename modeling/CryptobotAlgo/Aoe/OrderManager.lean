import CryptobotAlgo.Aos.Types
import CryptobotAlgo.Aos.Uid
import CryptobotAlgo.Machine.Basic
import Mathlib.Logic.Function.Basic

/-!
# Orders, their storage and their manager

The Bybit and the Binance classes have the same text up to the enumerations of the categories `C`
and of the order statuses `S`.  `K` stands for `double`.

An exchange event changes the stored orders through the methods of `OrderMutatorInterface`;
`OrderMutation` is one call of such a method, and an event is given by the calls that its `Accept`
makes, in order.
-/

namespace CryptobotAlgo.Aoe

open Aos

/-- `Side`. -/
inductive OrderSide
  | kInvalid
  | kSell
  | kBuy
  deriving DecidableEq, Repr

inductive OrderMode
  | kInvalid
  | kMarket
  | kLimit
  deriving DecidableEq, Repr

/-- The confirmation that an order waits for. -/
inductive PendingAction
  | kNone
  | kPlace
  | kAmend
  | kCancel
  | kTrigger
  deriving DecidableEq, Repr

/-- The member `kInvalid`, which both status enumerations have. -/
class OrderStatusEnum (S : Type) where
  kInvalid : S

structure Order (C S K : Type) where
  category : C
  side : OrderSide
  orderMode : OrderMode
  orderStatus : S
  pendingAction : PendingAction
  orderId : UInt64
  tradingPair : TradingPair
  price : K
  qty : K
  deriving DecidableEq, Repr

/-- The fields of `place_order::RequestInterface` that the manager reads or sets. -/
structure PlaceOrderRequest (C K : Type) where
  category : C
  orderSide : OrderSide
  orderMode : OrderMode
  orderId : UInt64
  tradingPair : TradingPair
  price : K
  qty : K
  deriving DecidableEq, Repr

def PlaceOrderRequest.setOrderId {C K : Type} (r : PlaceOrderRequest C K) (uid : UInt64) :
    PlaceOrderRequest C K :=
  { r with orderId := uid }

variable {C S K E : Type}

/-! ### The storage -/

/-- `OrderStorage`: the orders by their unique id. -/
structure OrderStorage (C S K : Type) where
  orders : UInt64 → Option (Order C S K) := fun _ => none

namespace OrderStorage

def get (st : OrderStorage C S K) (orderId : UInt64) : Option (Order C S K) := st.orders orderId

/-- `Add`; the index refuses a second order with the same id. -/
def add (st : OrderStorage C S K) (order : Order C S K) : OrderStorage C S K :=
  if (st.orders order.orderId).isSome then st
  else { orders := Function.update st.orders order.orderId (some order) }

def updateStatus (st : OrderStorage C S K) (orderId : UInt64) (newOrderStatus : S)
    (newPendingAction : PendingAction) : OrderStorage C S K where
  orders := Function.update st.orders orderId ((st.orders orderId).map fun o =>
    { o with orderStatus := newOrderStatus, pendingAction := newPendingAction })

def remove (st : OrderStorage C S K) (orderId : UInt64) : OrderStorage C S K where
  orders := Function.update st.orders orderId none

def updateState (st : OrderStorage C S K) (orderId : UInt64) (newPrice newQty : K) :
    OrderStorage C S K where
  orders := Function.update st.orders orderId ((st.orders orderId).map fun o =>
    { o with price := newPrice, qty := newQty })

variable (st : OrderStorage C S K) (orderId other : UInt64)

theorem get_add_of_none (order : Order C S K) (h : st.get order.orderId = none) (other : UInt64) :
    (st.add order).get other = if other = order.orderId then some order else st.get other := by
  have hnone : ¬ (st.orders order.orderId).isSome := by
    rw [show st.orders order.orderId = none from h]
    exact Bool.false_ne_true
  unfold add
  rw [if_neg hnone]
  exact Function.update_apply _ _ _ _

theorem add_of_some (order : Order C S K) (h : (st.get order.orderId).isSome) :
    st.add order = st := if_pos h

theorem get_updateStatus (status : S) (pending : PendingAction) :
    (st.updateStatus orderId status pending).get other =
      if other = orderId then (st.get other).map fun o =>
        { o with orderStatus := status, pendingAction := pending }
      else st.get other := by
  show Function.update st.orders orderId _ other = _
  rw [Function.update_apply]
  split
  · next h => rw [h]; rfl
  · rfl

theorem get_remove :
    (st.remove orderId).get other = if other = orderId then none else st.get other :=
  Function.update_apply _ _ _ _

theorem get_updateState (price qty : K) :
    (st.updateState orderId price qty).get other =
      if other = orderId then (st.get other).map fun o => { o with price := price, qty := qty }
      else st.get other := by
  show Function.update st.orders orderId _ other = _
  rw [Function.update_apply]
  split
  · next h => rw [h]; rfl
  · rfl

end OrderStorage

/-! ### The manager -/

/-- A call of a method of `OrderMutatorInterface`. -/
inductive OrderMutation (C S K : Type)
  | updateStatus (orderId : UInt64) (newOrderStatus : S) (newPendingAction : PendingAction)
  | remove (orderId : UInt64)
  | updateState (orderId : UInt64) (newPrice newQty : K)
  | add (order : Order C S K)
  deriving DecidableEq, Repr

/-- The events of an exchange. -/
class OrderEventInterface (E : Type) (C S K : outParam Type) where
  /-- The id of the order that the event is about. -/
  orderId : E → UInt64
  /-- The calls that `Accept` makes. -/
  accept : E → List (OrderMutation C S K)

/-- What the manager sends to the exchange. -/
inductive SentOrder (C K : Type)
  | placeOrder (order : PlaceOrderRequest C K)
  | cancelOrder (orderId : UInt64)
  | amendOrder (orderId : UInt64)
  deriving DecidableEq, Repr

/-- `OrderManager`. -/
structure OrderManager (C S K : Type) where
  orderStorage : OrderStorage C S K := {}
  uidManager : UIDManager := {}

namespace OrderManager

/-- What `PlaceOrderManualId` and `PlaceOrderAutoId` do once the id is known. -/
def saveAndSend [OrderStatusEnum S] (m : OrderManager C S K) (typed : PlaceOrderRequest C K) :
    OrderManager C S K × List (SentOrder C K) :=
  let placedOrder : Order C S K :=
    ⟨typed.category, typed.orderSide, typed.orderMode, OrderStatusEnum.kInvalid, .kPlace,
      typed.orderId, typed.tradingPair, typed.price, typed.qty⟩
  ({ m with orderStorage := m.orderStorage.add placedOrder }, [.placeOrder typed])

def placeOrderManualId [OrderStatusEnum S] (m : OrderManager C S K) (order : PlaceOrderRequest C K)
    (uid : UInt64) : OrderManager C S K × List (SentOrder C K) :=
  m.saveAndSend (order.setOrderId uid)

def placeOrderAutoId [OrderStatusEnum S] (m : OrderManager C S K) (order : PlaceOrderRequest C K) :
    OrderManager C S K × List (SentOrder C K) :=
  let r := m.uidManager.getUniqueID
  { m with uidManager := r.2 }.saveAndSend (order.setOrderId r.1)

def cancelOrder [OrderStatusEnum S] (m : OrderManager C S K) (orderId : UInt64) :
    OrderManager C S K × List (SentOrder C K) :=
  ({ m with orderStorage := m.orderStorage.updateStatus orderId OrderStatusEnum.kInvalid .kCancel },
    [.cancelOrder orderId])

def amendOrder [OrderStatusEnum S] (m : OrderManager C S K) (orderId : UInt64) :
    OrderManager C S K × List (SentOrder C K) :=
  ({ m with orderStorage := m.orderStorage.updateStatus orderId OrderStatusEnum.kInvalid .kAmend },
    [.amendOrder orderId])

/-- The methods of `OrderMutatorInterface`; `Remove` gives the id back to the pool. -/
def mutate (m : OrderManager C S K) : OrderMutation C S K → OrderManager C S K
  | .updateStatus orderId newOrderStatus newPendingAction =>
    { m with orderStorage :=
      m.orderStorage.updateStatus orderId newOrderStatus newPendingAction }
  | .remove orderId =>
    { orderStorage := m.orderStorage.remove orderId
      uidManager := m.uidManager.returnIDToPool orderId }
  | .updateState orderId newPrice newQty =>
    { m with orderStorage := m.orderStorage.updateState orderId newPrice newQty }
  | .add order => { m with orderStorage := m.orderStorage.add order }

def onResponse [OrderEventInterface E C S K] (m : OrderManager C S K) (event : E) :
    OrderManager C S K :=
  (OrderEventInterface.accept event).foldl mutate m

/-- The ids in the pool. -/
abbrev pool (m : OrderManager C S K) : List UInt64 := m.uidManager.numberPool.pool

/-- The stored order with an id. -/
abbrev get (m : OrderManager C S K) (orderId : UInt64) : Option (Order C S K) :=
  m.orderStorage.get orderId

end OrderManager

/-! ### Runs -/

/-- A call of a method of the manager. -/
inductive OrderManagerCall (E C K : Type)
  | placeOrderManualId (order : PlaceOrderRequest C K) (uid : UInt64)
  | placeOrderAutoId (order : PlaceOrderRequest C K)
  | cancelOrder (orderId : UInt64)
  | amendOrder (orderId : UInt64)
  | onResponse (event : E)
  deriving DecidableEq, Repr

/-- The manager after a call, and what the call sends. -/
def OrderManager.call [OrderStatusEnum S] [OrderEventInterface E C S K] (m : OrderManager C S K) :
    OrderManagerCall E C K → OrderManager C S K × List (SentOrder C K)
  | .placeOrderManualId order uid => m.placeOrderManualId order uid
  | .placeOrderAutoId order => m.placeOrderAutoId order
  | .cancelOrder orderId => m.cancelOrder orderId
  | .amendOrder orderId => m.amendOrder orderId
  | .onResponse event => (m.onResponse event, [])

/-- The manager under calls in any order. -/
def orderManagerMachine (E C S K : Type) [OrderStatusEnum S] [OrderEventInterface E C S K] :
    Machine (OrderManager C S K) (OrderManagerCall E C K) (SentOrder C K) where
  enabled _ _ := True
  step := OrderManager.call

end CryptobotAlgo.Aoe
