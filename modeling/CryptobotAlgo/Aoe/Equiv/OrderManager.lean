import CryptobotAlgo.Aoe.Binance.OrderEvent
import CryptobotAlgo.Aoe.Bybit.OrderEvent

/-!
# What an event does to the orders

An event of either exchange removes its order, or it changes fields of its order and nothing else
(`LawfulOrderEvent`).  `SameOrders` is what is then left as it was.
-/

namespace CryptobotAlgo.Aoe

open Aos

variable {C S K E : Type} {id : UInt64} {m m' m'' : OrderManager C S K}

/-- The calls change at most fields of the order `id`. -/
structure SameOrders (id : UInt64) (m m' : OrderManager C S K) : Prop where
  uidManager : m'.uidManager = m.uidManager
  isSome : ∀ i, (m'.get i).isSome = (m.get i).isSome
  other : ∀ i, i ≠ id → m'.get i = m.get i

theorem SameOrders.refl (m : OrderManager C S K) : SameOrders id m m :=
  ⟨rfl, fun _ => rfl, fun _ _ => rfl⟩

theorem SameOrders.trans (h : SameOrders id m m') (h' : SameOrders id m' m'') :
    SameOrders id m m'' where
  uidManager := h'.uidManager.trans h.uidManager
  isSome i := (h'.isSome i).trans (h.isSome i)
  other i hi := (h'.other i hi).trans (h.other i hi)

/-- The mutation changes fields of the order `id`. -/
def OrderMutation.Updates (id : UInt64) : OrderMutation C S K → Prop
  | .updateStatus orderId _ _ => orderId = id
  | .updateState orderId _ _ => orderId = id
  | .remove _ => False
  | .add _ => False

/-- A changed order does not come or go. -/
theorem sameOrders_of_get {m' : OrderManager C S K} {f : Order C S K → Order C S K}
    (huid : m'.uidManager = m.uidManager)
    (hget : ∀ i, m'.get i = if i = id then (m.get i).map f else m.get i) :
    SameOrders id m m' := by
  refine ⟨huid, fun i => ?_, fun i hi => ?_⟩
  · rw [hget]
    split
    · exact Option.isSome_map
    · rfl
  · rw [hget, if_neg hi]

theorem sameOrders_updateStatus (status : S) (pending : PendingAction) :
    SameOrders id m (m.mutate (.updateStatus id status pending)) :=
  sameOrders_of_get rfl fun i => m.orderStorage.get_updateStatus id i status pending

theorem sameOrders_updateState (price qty : K) :
    SameOrders id m (m.mutate (.updateState id price qty)) :=
  sameOrders_of_get rfl fun i => m.orderStorage.get_updateState id i price qty

theorem sameOrders_mutate {u : OrderMutation C S K} (h : u.Updates id) :
    SameOrders id m (m.mutate u) := by
  cases u with
  | updateStatus orderId status pending =>
    obtain rfl : orderId = id := h
    exact sameOrders_updateStatus status pending
  | updateState orderId price qty =>
    obtain rfl : orderId = id := h
    exact sameOrders_updateState price qty
  | remove orderId => exact h.elim
  | add order => exact h.elim

theorem sameOrders_foldl {us : List (OrderMutation C S K)} (h : ∀ u ∈ us, u.Updates id) :
    SameOrders id m (us.foldl OrderManager.mutate m) := by
  induction us generalizing m with
  | nil => exact .refl m
  | cons u us ih =>
    have hfst : SameOrders id m (m.mutate u) := sameOrders_mutate (h u List.mem_cons_self)
    exact hfst.trans (ih fun v hv => h v (List.mem_cons_of_mem u hv))

/-- What a mutation does to the stored order that it is about. -/
def OrderMutation.onOrder (o : Option (Order C S K)) : OrderMutation C S K → Option (Order C S K)
  | .updateStatus _ status pending =>
    o.map fun o => { o with orderStatus := status, pendingAction := pending }
  | .remove _ => none
  | .updateState _ price qty => o.map fun o => { o with price, qty }
  | .add order => some (o.getD order)

theorem get_mutate {u : OrderMutation C S K} (h : u.Updates id) (m : OrderManager C S K) :
    (m.mutate u).get id = u.onOrder (m.get id) := by
  cases u with
  | updateStatus orderId status pending =>
    obtain rfl : orderId = id := h
    exact (m.orderStorage.get_updateStatus orderId orderId status pending).trans (if_pos rfl)
  | updateState orderId price qty =>
    obtain rfl : orderId = id := h
    exact (m.orderStorage.get_updateState orderId orderId price qty).trans (if_pos rfl)
  | remove orderId => exact h.elim
  | add order => exact h.elim

theorem get_foldl_mutate {us : List (OrderMutation C S K)} (h : ∀ u ∈ us, u.Updates id) :
    (us.foldl OrderManager.mutate m).get id = us.foldl OrderMutation.onOrder (m.get id) := by
  induction us generalizing m with
  | nil => rfl
  | cons u us ih =>
    rw [List.foldl_cons, List.foldl_cons, ih fun v hv => h v (List.mem_cons_of_mem u hv),
      get_mutate (h u List.mem_cons_self)]

/-! ### Events -/

section Event

variable [OrderEventInterface E C S K]

/-- The event removes its order. -/
def Removes (e : E) : Prop :=
  OrderEventInterface.accept e = [.remove (OrderEventInterface.orderId e)]

instance [DecidableEq C] [DecidableEq S] [DecidableEq K] (e : E) : Decidable (Removes e) :=
  inferInstanceAs (Decidable (_ = _))

/-- An event removes its order, or changes fields of it. -/
class LawfulOrderEvent (E : Type) {C S K : Type} [OrderEventInterface E C S K] : Prop where
  removes_or_updates (e : E) : Removes e ∨
    ∀ u ∈ OrderEventInterface.accept e, u.Updates (OrderEventInterface.orderId e)

theorem onResponse_of_removes {e : E} (h : Removes e) (m : OrderManager C S K) :
    m.onResponse e = m.mutate (.remove (OrderEventInterface.orderId e)) := by
  unfold OrderManager.onResponse
  rw [show OrderEventInterface.accept e = _ from h]
  rfl

theorem pool_onResponse_of_removes {e : E} (h : Removes e) (m : OrderManager C S K) :
    (m.onResponse e).pool = m.pool ++ [OrderEventInterface.orderId e] := by
  rw [onResponse_of_removes h]
  rfl

theorem get_onResponse_of_removes {e : E} (h : Removes e) (m : OrderManager C S K) (i : UInt64) :
    (m.onResponse e).get i = if i = OrderEventInterface.orderId e then none else m.get i := by
  rw [onResponse_of_removes h]
  exact m.orderStorage.get_remove _ i

/-- An event that does not remove its order leaves the orders as they are. -/
theorem sameOrders_onResponse [LawfulOrderEvent E] {e : E} (h : ¬ Removes e)
    (m : OrderManager C S K) :
    SameOrders (OrderEventInterface.orderId e) m (m.onResponse e) :=
  sameOrders_foldl ((LawfulOrderEvent.removes_or_updates e).resolve_left h)

/-- The order that an event is about goes through the mutations of the event. -/
theorem get_onResponse [LawfulOrderEvent E] (e : E) (m : OrderManager C S K) :
    (m.onResponse e).get (OrderEventInterface.orderId e) =
      (OrderEventInterface.accept e).foldl OrderMutation.onOrder
        (m.get (OrderEventInterface.orderId e)) := by
  by_cases hremoves : Removes e
  · rw [get_onResponse_of_removes hremoves, if_pos rfl]
    rw [show OrderEventInterface.accept e = _ from hremoves]
    rfl
  · exact get_foldl_mutate ((LawfulOrderEvent.removes_or_updates e).resolve_left hremoves)

theorem get_onResponse_of_ne [LawfulOrderEvent E] {e : E}
    (h : id ≠ OrderEventInterface.orderId e) (m : OrderManager C S K) :
    (m.onResponse e).get id = m.get id := by
  by_cases hremoves : Removes e
  · rw [get_onResponse_of_removes hremoves, if_neg h]
  · exact (sameOrders_onResponse hremoves m).other id h

end Event

theorem Bybit.OrderEvent.removes_or_updates (e : Bybit.OrderEvent K) :
    Removes e ∨ ∀ u ∈ e.accept, u.Updates e.orderId := by
  obtain ⟨eventClass, orderId, price, leavesQty⟩ := e
  cases eventClass with
  | default => exact Or.inr (by simp [OrderEvent.accept])
  | new => exact Or.inr (by simp [OrderEvent.accept, OrderMutation.Updates])
  | partiallyFilled => exact Or.inr (by simp [OrderEvent.accept, OrderMutation.Updates])
  | untriggered => exact Or.inr (by simp [OrderEvent.accept, OrderMutation.Updates])
  | _ => exact Or.inl rfl

instance : LawfulOrderEvent (Bybit.OrderEvent K) := ⟨Bybit.OrderEvent.removes_or_updates⟩

theorem Binance.OrderEvent.removes_or_updates [Sub K] (e : Binance.OrderEvent K) :
    Removes e ∨ ∀ u ∈ e.accept, u.Updates e.orderId := by
  obtain ⟨eventClass, orderId, price, orderQty, cumExecQty⟩ := e
  cases eventClass with
  | default => exact Or.inr (by simp [OrderEvent.accept])
  | new => exact Or.inr (by simp [OrderEvent.accept, OrderMutation.Updates])
  | pendingNew => exact Or.inr (by simp [OrderEvent.accept, OrderMutation.Updates])
  | partiallyFilled => exact Or.inr (by simp [OrderEvent.accept, OrderMutation.Updates])
  | pendingCancel => exact Or.inr (by simp [OrderEvent.accept])
  | _ => exact Or.inl rfl

instance [Sub K] : LawfulOrderEvent (Binance.OrderEvent K) :=
  ⟨Binance.OrderEvent.removes_or_updates⟩

/-! ### Open and terminal statuses

The statuses that are neither are those of an order on its way from one status to the next. -/

namespace Bybit

def OrderStatus.isOpen : OrderStatus → Bool
  | .kNew | .kPartiallyFilled | .kUntriggered => true
  | _ => false

/-- An order that is triggered goes on to `kNew`. -/
def OrderStatus.isTerminal : OrderStatus → Bool
  | .kRejected | .kPartiallyFilledCanceled | .kFilled | .kCancelled | .kDeactivated => true
  | _ => false

/-- The status that an event of a class reports. -/
def OrderEventClass.orderStatus : OrderEventClass → OrderStatus
  | .default => .kInvalid
  | .new => .kNew
  | .partiallyFilled => .kPartiallyFilled
  | .untriggered => .kUntriggered
  | .rejected => .kRejected
  | .partiallyFilledCancelled => .kPartiallyFilledCanceled
  | .filled => .kFilled
  | .cancelled => .kCancelled
  | .triggered => .kTriggered
  | .deactivated => .kDeactivated

def OrderEvent.orderStatus (e : OrderEvent K) : OrderStatus := e.eventClass.orderStatus

/-- The event ends its order. -/
def OrderEvent.isTerminal (e : OrderEvent K) : Bool := e.orderStatus.isTerminal

theorem OrderEvent.removes_of_isTerminal (e : OrderEvent K) (h : e.isTerminal = true) :
    Removes e := by
  obtain ⟨eventClass, orderId, price, leavesQty⟩ := e
  cases eventClass with
  | default | new | partiallyFilled | untriggered | triggered => exact absurd h Bool.false_ne_true
  | _ => rfl

end Bybit

namespace Binance

variable [Sub K]

def OrderStatus.isOpen : OrderStatus → Bool
  | .kNew | .kPendingNew | .kPartiallyFilled => true
  | _ => false

def OrderStatus.isTerminal : OrderStatus → Bool
  | .kFilled | .kCancelled | .kRejected | .kExpired | .kExpiredInMatch => true
  | _ => false

/-- The status that an event of a class reports. -/
def OrderEventClass.orderStatus : OrderEventClass → OrderStatus
  | .default => .kInvalid
  | .new => .kNew
  | .pendingNew => .kPendingNew
  | .partiallyFilled => .kPartiallyFilled
  | .filled => .kFilled
  | .cancelled => .kCancelled
  | .pendingCancel => .kPendingCancel
  | .rejected => .kRejected
  | .expired => .kExpired
  | .expiredInMatch => .kExpiredInMatch

omit [Sub K] in
def OrderEvent.orderStatus (e : OrderEvent K) : OrderStatus := e.eventClass.orderStatus

omit [Sub K] in
/-- The event ends its order. -/
def OrderEvent.isTerminal (e : OrderEvent K) : Bool := e.orderStatus.isTerminal

theorem OrderEvent.removes_of_isTerminal (e : OrderEvent K) (h : e.isTerminal = true) :
    Removes e := by
  obtain ⟨eventClass, orderId, price, orderQty, cumExecQty⟩ := e
  cases eventClass with
  | default | new | pendingNew | partiallyFilled | pendingCancel =>
    exact absurd h Bool.false_ne_true
  | _ => rfl

end Binance

/-! ### Placing an order -/

section Place

variable [OrderStatusEnum S]

/-- The order that a request places. -/
def PlaceOrderRequest.placed (r : PlaceOrderRequest C K) : Order C S K :=
  ⟨r.category, r.orderSide, r.orderMode, OrderStatusEnum.kInvalid, .kPlace, r.orderId,
    r.tradingPair, r.price, r.qty⟩

/-- The storage takes an order with an unused id. -/
theorem get_saveAndSend {r : PlaceOrderRequest C K} (h : m.get r.orderId = none) (i : UInt64) :
    (m.saveAndSend r).1.get i = if i = r.orderId then some r.placed else m.get i :=
  m.orderStorage.get_add_of_none r.placed h i

theorem get_saveAndSend_of_ne {r : PlaceOrderRequest C K} (h : id ≠ r.orderId) :
    (m.saveAndSend r).1.get id = m.get id := by
  by_cases hsome : (m.get r.orderId).isSome
  · show (m.orderStorage.add r.placed).get id = m.orderStorage.get id
    rw [m.orderStorage.add_of_some r.placed hsome]
  · rw [get_saveAndSend (Option.not_isSome_iff_eq_none.mp hsome), if_neg h]

end Place

end CryptobotAlgo.Aoe
