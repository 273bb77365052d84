import CryptobotAlgo.Aos.Types
import CryptobotAlgo.Machine.Basic
import Mathlib.Algebra.Group.Basic
import Mathlib.Logic.Function.Basic
import Mathlib.Order.Lattice

/-!
# Positions by order id

`PositionStorageByOrderId` and `PositionStorageByOrderIdDefault` have the same text up to their
types: the default one has `double` for quantities and `std::size_t` for ids.
-/

namespace CryptobotAlgo.Aos

/-- `PositionStorageByOrderId::Key`. -/
structure OrderKey (Uid : Type) where
  exchange : ExchangeId
  tradingPair : TradingPair
  uid : Uid
  deriving DecidableEq, Repr

structure PositionStorageByOrderId (Uid Qty : Type) where
  positions : OrderKey Uid → Option Qty := fun _ => none

namespace PositionStorageByOrderId

variable {Uid Qty : Type} [DecidableEq Uid] [AddCommGroup Qty] [LinearOrder Qty]

def getPosition (s : PositionStorageByOrderId Uid Qty) (key : OrderKey Uid) : Bool × Qty :=
  match s.positions key with
  | none => (false, 0)
  | some qty => (true, qty)

/-- `AddPosition`; `[]` makes an entry of value `0`. -/
def addPosition (s : PositionStorageByOrderId Uid Qty) (key : OrderKey Uid) (qty : Qty) :
    PositionStorageByOrderId Uid Qty where
  positions := Function.update s.positions key (some ((s.positions key).getD 0 + qty))

def removePosition (s : PositionStorageByOrderId Uid Qty) (key : OrderKey Uid) (qty : Qty) :
    PositionStorageByOrderId Uid Qty × Bool :=
  match s.positions key with
  | none => (s, true)
  | some held =>
    if held - qty = 0 then ({ positions := Function.update s.positions key none }, true)
    else if held - qty < 0 then ({ positions := Function.update s.positions key none }, true)
    else ({ positions := Function.update s.positions key (some (held - qty)) }, true)

end PositionStorageByOrderId

/-- A call that changes the storage. -/
inductive OrderPositionCall (Uid Qty : Type)
  | addPosition (key : OrderKey Uid) (qty : Qty)
  | removePosition (key : OrderKey Uid) (qty : Qty)
  deriving DecidableEq, Repr

/-- The storage under calls in any order; it emits what `RemovePosition` returns. -/
def orderPositionMachine (Uid Qty : Type) [DecidableEq Uid] [AddCommGroup Qty] [LinearOrder Qty] :
    Machine (PositionStorageByOrderId Uid Qty) (OrderPositionCall Uid Qty) Bool where
  enabled _ _ := True
  step s
    | .addPosition key qty => (s.addPosition key qty, [])
    | .removePosition key qty => ((s.removePosition key qty).1, [(s.removePosition key qty).2])

end CryptobotAlgo.Aos
