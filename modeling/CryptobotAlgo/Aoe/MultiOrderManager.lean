import CryptobotAlgo.Aoe.Binance.OrderEvent
import CryptobotAlgo.Aoe.Bybit.OrderEvent
import CryptobotAlgo.Machine.Registry

/-!
# The managers of several exchanges

`MultiOrderManagerDefault` keeps a manager for each exchange, and passes a call on to the manager of
the exchange that it is for.  It knows the managers and their requests by their base classes only;
a manager casts what it gets to the classes of its own exchange, so that a caller may pass only
these to it.

A manager refers to its storage and to a manager of ids, which refers to a generator and to a pool;
whoever builds managers may let two of them refer to the same one.  What is sent goes to the API
that a manager refers to, and is not part of the state.
-/

namespace CryptobotAlgo.Aoe

open Aos

variable (K : Type) [Sub K]

/-- A manager of one of the exchanges. -/
abbrev AnyOrderManager :=
  OrderManager Bybit.Category Bybit.OrderStatus K ⊕
    OrderManager Binance.Category Binance.OrderStatus K

/-- A call of one of the five methods, with arguments of one of the exchanges. -/
abbrev AnyOrderManagerCall :=
  OrderManagerCall (Bybit.OrderEvent K) Bybit.Category K ⊕
    OrderManagerCall (Binance.OrderEvent K) Binance.Category K

/-- What a manager sends to its exchange. -/
abbrev AnySentOrder := SentOrder Bybit.Category K ⊕ SentOrder Binance.Category K

/-- `OrderManagerInterface`. -/
def anyOrderManager : Machine (AnyOrderManager K) (AnyOrderManagerCall K) (AnySentOrder K) :=
  Machine.sum (orderManagerMachine (Bybit.OrderEvent K) Bybit.Category Bybit.OrderStatus K)
    (orderManagerMachine (Binance.OrderEvent K) Binance.Category Binance.OrderStatus K)

/-- What an `OrderManager` refers to: `order_storage_`, and the generator and the pool of
`uid_manager_`. -/
structure OrderManagerRefs where
  orderStorage : ℕ
  idGenerator : ℕ
  numberPool : ℕ
  deriving DecidableEq, Repr

/-- What a manager of one of the exchanges refers to. -/
abbrev AnyOrderManagerRefs := OrderManagerRefs ⊕ OrderManagerRefs

/-- The objects that managers refer to. -/
structure OrderManagerObjects where
  bybitStorages : ℕ → OrderStorage Bybit.Category Bybit.OrderStatus K := fun _ => {}
  binanceStorages : ℕ → OrderStorage Binance.Category Binance.OrderStatus K := fun _ => {}
  idGenerators : ℕ → UIDGenerator := fun _ => {}
  numberPools : ℕ → NumberPool := fun _ => {}

variable {K}

namespace OrderManagerObjects

def uidManager (objects : OrderManagerObjects K) (refs : OrderManagerRefs) : UIDManager where
  idGenerator := objects.idGenerators refs.idGenerator
  numberPool := objects.numberPools refs.numberPool

def setUidManager (objects : OrderManagerObjects K) (refs : OrderManagerRefs)
    (uidManager : UIDManager) : OrderManagerObjects K :=
  { objects with
    idGenerators := Function.update objects.idGenerators refs.idGenerator uidManager.idGenerator
    numberPools := Function.update objects.numberPools refs.numberPool uidManager.numberPool }

/-- The manager, with what it refers to. -/
def load (objects : OrderManagerObjects K) : AnyOrderManagerRefs → AnyOrderManager K
  | .inl refs => .inl ⟨objects.bybitStorages refs.orderStorage, objects.uidManager refs⟩
  | .inr refs => .inr ⟨objects.binanceStorages refs.orderStorage, objects.uidManager refs⟩

/-- What a manager refers to becomes what the manager has made of it. -/
def store (objects : OrderManagerObjects K) :
    AnyOrderManagerRefs → AnyOrderManager K → OrderManagerObjects K
  | .inl refs, .inl om =>
    { objects.setUidManager refs om.uidManager with
      bybitStorages := Function.update objects.bybitStorages refs.orderStorage om.orderStorage }
  | .inr refs, .inr om =>
    { objects.setUidManager refs om.uidManager with
      binanceStorages := Function.update objects.binanceStorages refs.orderStorage om.orderStorage }
  -- a call leaves a manager one of its exchange
  | .inl _, .inr _ | .inr _, .inl _ => objects

end OrderManagerObjects

variable (K)

/-- The managers are read and written where they refer to. -/
def managerStore : Store (OrderManagerObjects K) AnyOrderManagerRefs (AnyOrderManager K) where
  load := OrderManagerObjects.load
  store := OrderManagerObjects.store

/-- `MultiOrderManagerDefault`: `refs` is `oms_`, `register` is `Register`, and `call` stands for
the five methods, each of which calls the same method of `oms_.at(id)`.  `at` throws where there is
no manager. -/
def multiOrderManager :
    Machine (StoreRegistry (OrderManagerObjects K) ExchangeId AnyOrderManagerRefs)
      (RegistryEvent ExchangeId AnyOrderManagerRefs (AnyOrderManagerCall K))
      (RegistryAction ExchangeId (AnySentOrder K)) :=
  Machine.storeRegistry (anyOrderManager K) (managerStore K)

end CryptobotAlgo.Aoe
