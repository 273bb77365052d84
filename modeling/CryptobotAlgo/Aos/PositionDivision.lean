import CryptobotAlgo.Aos.Position
import CryptobotAlgo.Machine.Basic

/-!
# The divisions of the position strategies

The strategies once more, division by division: `checkedDiv` has no value where the divisor is `0`,
and neither has a call that executes such a division, nor a run with such a call.  Where the checked
calls have a value, it is that of the calls of `Aos/Position.lean`.
-/

namespace CryptobotAlgo.Aos

section Checked

variable {K : Type} [Field K]

/-- A division that is executed. -/
def checkedDiv [DecidableEq K] (a b : K) : Option K := if b = 0 then none else some (a / b)

variable {R U : Type} [LinearOrder K] [PnlRealizedStorageInterface R K]
  [PnlUnRealizedStorageInterface U K]

/-- `NetPositionStrategyDefault::Add`. -/
def NetPositionStrategyDefault.checkedAdd (storages : PnlStorages R U) (exchangeId : ExchangeId)
    (tradingPair : TradingPair) (avgPrice netQty price qty : K) :
    Option (K × K × PnlStorages R U) := do
  let totalValue := netQty * avgPrice + qty * price
  let netQty := netQty + qty
  let avgPrice ← checkedDiv totalValue netQty
  return (avgPrice, netQty, { storages with
    unrealized := updatePosition storages.unrealized exchangeId tradingPair avgPrice netQty })

/-- `NetPositionStrategyDefault::Remove`. -/
def NetPositionStrategyDefault.checkedRemove (storages : PnlStorages R U) (exchangeId : ExchangeId)
    (tradingPair : TradingPair) (avgPrice netQty price qty : K) :
    Option (K × K × PnlStorages R U) := do
  let fixed := fixProfit storages.realized exchangeId tradingPair avgPrice netQty price qty
  let netQty := netQty - qty
  let avgPrice ←
    (if netQty ≠ 0 then checkedDiv (avgPrice * (netQty + qty) - price * qty) netQty else some 0)
  return (avgPrice, netQty, {
    realized := fixed.1
    unrealized := updatePosition storages.unrealized exchangeId tradingPair avgPrice netQty })

/-- `HedgedPositionStrategyDefault::Add`. -/
def HedgedPositionStrategyDefault.checkedAdd (storages : PnlStorages R U) (exchangeId : ExchangeId)
    (tradingPair : TradingPair) (avgPrice netQty : Fin 2 → K) (price qty : K) :
    Option ((Fin 2 → K) × (Fin 2 → K) × PnlStorages R U) := do
  let idx : Fin 2 := if 0 < qty then longSlot else shortSlot
  let totalValue := netQty idx * avgPrice idx + qty * price
  let netQty := Function.update netQty idx (netQty idx + qty)
  let quotient ← checkedDiv totalValue (netQty idx)
  let avgPrice := Function.update avgPrice idx quotient
  return (avgPrice, netQty, { storages with
    unrealized :=
      updatePosition storages.unrealized exchangeId tradingPair (avgPrice idx) (netQty idx) })

/-- `HedgedPositionStrategyDefault::Remove`. -/
def HedgedPositionStrategyDefault.checkedRemove (storages : PnlStorages R U)
    (exchangeId : ExchangeId) (tradingPair : TradingPair) (avgPrice netQty : Fin 2 → K)
    (price qty : K) : Option ((Fin 2 → K) × (Fin 2 → K) × PnlStorages R U) := do
  let idx : Fin 2 := if 0 < qty then longSlot else shortSlot
  let fixed := fixProfit storages.realized exchangeId tradingPair (avgPrice idx) (netQty idx) price
    qty
  let absQty := |qty|
  let removable := min |netQty idx| absQty
  let removable := if qty < 0 then -removable else removable
  let remaining := qty - removable
  let netQty := Function.update netQty idx (netQty idx - removable)
  let quotient ←
    (if 0 < netQty idx then checkedDiv (avgPrice idx * netQty idx - fixed.2) (netQty idx)
    else some 0)
  let avgPrice := Function.update avgPrice idx quotient
  let unrealized :=
    updatePosition storages.unrealized exchangeId tradingPair (avgPrice idx) (netQty idx)
  let netQty := Function.update netQty (otherSlot idx) (netQty (otherSlot idx) + remaining)
  let totalValueNewSide := avgPrice (otherSlot idx) * netQty (otherSlot idx) + price * remaining
  let quotient ←
    (if remaining ≠ 0 then checkedDiv totalValueNewSide (netQty (otherSlot idx))
    else some (avgPrice (otherSlot idx)))
  let avgPrice := Function.update avgPrice (otherSlot idx) quotient
  let unrealized :=
    if remaining ≠ 0 then
      updatePosition unrealized exchangeId tradingPair (avgPrice (otherSlot idx))
        (netQty (otherSlot idx))
    else
      unrealized
  return (avgPrice, netQty, { realized := fixed.1, unrealized })

namespace NetPositionDefault

def checkedAddPosition (p : NetPositionDefault K) (storages : PnlStorages R U)
    (exchangeId : ExchangeId) (tradingPair : TradingPair) (price qty : K) :
    Option (NetPositionDefault K × PnlStorages R U) :=
  (NetPositionStrategyDefault.checkedAdd storages exchangeId tradingPair p.avgPrice p.netQty price
    qty).map fun r => ({ avgPrice := r.1, netQty := r.2.1 }, r.2.2)

def checkedRemovePosition (p : NetPositionDefault K) (storages : PnlStorages R U)
    (exchangeId : ExchangeId) (tradingPair : TradingPair) (price qty : K) :
    Option (NetPositionDefault K × PnlStorages R U) :=
  (NetPositionStrategyDefault.checkedRemove storages exchangeId tradingPair p.avgPrice p.netQty
    price qty).map fun r => ({ avgPrice := r.1, netQty := r.2.1 }, r.2.2)

end NetPositionDefault

namespace HedgedPositionDefault

def checkedAddPosition (p : HedgedPositionDefault K) (storages : PnlStorages R U)
    (exchangeId : ExchangeId) (tradingPair : TradingPair) (price qty : K) :
    Option (HedgedPositionDefault K × PnlStorages R U) :=
  (HedgedPositionStrategyDefault.checkedAdd storages exchangeId tradingPair p.avgPrice p.netQty
    price qty).map fun r => ({ avgPrice := r.1, netQty := r.2.1 }, r.2.2)

def checkedRemovePosition (p : HedgedPositionDefault K) (storages : PnlStorages R U)
    (exchangeId : ExchangeId) (tradingPair : TradingPair) (price qty : K) :
    Option (HedgedPositionDefault K × PnlStorages R U) :=
  (HedgedPositionStrategyDefault.checkedRemove storages exchangeId tradingPair p.avgPrice p.netQty
    price qty).map fun r => ({ avgPrice := r.1, netQty := r.2.1 }, r.2.2)

end HedgedPositionDefault

end Checked

/-! ### The position storage -/

/-- A position with checked calls; their values are those of the calls themselves. -/
class CheckedPosition (P St : Type) (K : outParam Type) [PositionInterface P St K] where
  checkedAdd : P → St → ExchangeId → TradingPair → (price qty : K) → Option (P × St)
  checkedRemove : P → St → ExchangeId → TradingPair → (price qty : K) → Option (P × St)
  checkedAdd_some : ∀ {p st exchangeId tradingPair price qty r},
    checkedAdd p st exchangeId tradingPair price qty = some r →
      PositionInterface.addPosition p st exchangeId tradingPair price qty = r
  checkedRemove_some : ∀ {p st exchangeId tradingPair price qty r},
    checkedRemove p st exchangeId tradingPair price qty = some r →
      PositionInterface.removePosition p st exchangeId tradingPair price qty = r

/-- A call on the position storage. -/
inductive StorageCall (K : Type)
  | addPosition (exchange : ExchangeId) (tradingPair : TradingPair) (price qty : K)
  | removePosition (exchange : ExchangeId) (tradingPair : TradingPair) (price qty : K)
  deriving DecidableEq, Repr

section Storage

variable {P St K : Type} [PositionInterface P St K]

/-- Calls on a storage, in any order and for any pairs; a removal emits what it returns. -/
def storageMachine : Machine (PositionStorageByPair P × St) (StorageCall K) Bool where
  enabled _ _ := True
  step s
    | .addPosition exchange tradingPair price qty =>
      (s.1.addPosition s.2 exchange tradingPair price qty, [])
    | .removePosition exchange tradingPair price qty =>
      let r := s.1.removePosition s.2 exchange tradingPair price qty
      (r.1, [r.2])

variable [CheckedPosition P St K]

/-- `AddPosition`. -/
def PositionStorageByPair.checkedAddPosition (s : PositionStorageByPair P) (st : St)
    (exchange : ExchangeId) (tradingPair : TradingPair) (price qty : K) :
    Option (PositionStorageByPair P × St) :=
  let key := (exchange, tradingPair)
  let position := (s.storagePosition key).getD s.positionFactory
  (CheckedPosition.checkedAdd position st exchange tradingPair price qty).map fun r =>
    ({ s with storagePosition := Function.update s.storagePosition key (some r.1) }, r.2)

/-- `RemovePosition`. -/
def PositionStorageByPair.checkedRemovePosition (s : PositionStorageByPair P) (st : St)
    (exchange : ExchangeId) (tradingPair : TradingPair) (price qty : K) :
    Option (PositionStorageByPair P × St) :=
  let key := (exchange, tradingPair)
  match s.storagePosition key with
  | none => some (s, st)
  | some position =>
    (CheckedPosition.checkedRemove position st exchange tradingPair price qty).map fun r =>
      let entry := if PositionInterface.isEmpty St r.1 then none else some r.1
      ({ s with storagePosition := Function.update s.storagePosition key entry }, r.2)

/-- A call on a storage. -/
def checkedStep (s : PositionStorageByPair P × St) :
    StorageCall K → Option (PositionStorageByPair P × St)
  | .addPosition exchange tradingPair price qty =>
    s.1.checkedAddPosition s.2 exchange tradingPair price qty
  | .removePosition exchange tradingPair price qty =>
    s.1.checkedRemovePosition s.2 exchange tradingPair price qty

/-- The calls of a run, up to the first division by zero. -/
def checkedRun (s : PositionStorageByPair P × St) (calls : List (StorageCall K)) :
    Option (PositionStorageByPair P × St) :=
  calls.foldlM checkedStep s

end Storage

end CryptobotAlgo.Aos
