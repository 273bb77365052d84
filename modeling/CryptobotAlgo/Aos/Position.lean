import CryptobotAlgo.Aos.Pnl

/-!
# Positions

A position holds a net quantity and an average price, which a strategy changes; the strategy reports
to two storages that all positions share, so these are passed along.  `PositionStorageByPair` keeps
one position for each exchange and trading pair.
-/

namespace CryptobotAlgo.Aos

/-- The storages that a strategy refers to. -/
structure PnlStorages (R U : Type) where
  realized : R
  unrealized : U

/-- What `PositionStorageByPair` calls on a position of type `P`; `St` are the storages behind the
strategy of the position. -/
class PositionInterface (P St : Type) (K : outParam Type) where
  addPosition : P → St → ExchangeId → TradingPair → (price qty : K) → P × St
  removePosition : P → St → ExchangeId → TradingPair → (price qty : K) → P × St
  isEmpty (St) : P → Bool

/-- `PositionStorageByPair`; the factory makes a position that holds nothing. -/
structure PositionStorageByPair (P : Type) where
  storagePosition : Key → Option P := fun _ => none
  positionFactory : P

namespace PositionStorageByPair

variable {P K St : Type}

/-- `GetPosition`. -/
def getPosition (s : PositionStorageByPair P) (exchange : ExchangeId) (tradingPair : TradingPair) :
    Option P :=
  s.storagePosition (exchange, tradingPair)

variable [PositionInterface P St K]

/-- `AddPosition`: a position that does not exist is created. -/
def addPosition (s : PositionStorageByPair P) (st : St) (exchange : ExchangeId)
    (tradingPair : TradingPair) (price qty : K) : PositionStorageByPair P × St :=
  let key := (exchange, tradingPair)
  let position := (s.storagePosition key).getD s.positionFactory
  let r := PositionInterface.addPosition position st exchange tradingPair price qty
  ({ s with storagePosition := Function.update s.storagePosition key (some r.1) }, r.2)

/-- `RemovePosition`: a position that does not exist is not created; one that becomes empty is
erased. -/
def removePosition (s : PositionStorageByPair P) (st : St) (exchange : ExchangeId)
    (tradingPair : TradingPair) (price qty : K) : (PositionStorageByPair P × St) × Bool :=
  let key := (exchange, tradingPair)
  match s.storagePosition key with
  | none => ((s, st), false)
  | some position =>
    let r := PositionInterface.removePosition position st exchange tradingPair price qty
    -- `storage_position_.erase(it)`
    let entry := if PositionInterface.isEmpty St r.1 then none else some r.1
    (({ s with storagePosition := Function.update s.storagePosition key entry }, r.2), true)

end PositionStorageByPair

/-- A call on one position. -/
inductive PositionCall (K : Type)
  | addPosition (price qty : K)
  | removePosition (price qty : K)
  deriving DecidableEq, Repr

/-- What a call does to the position and to the storages behind it. -/
def PositionCall.apply {P St K : Type} [PositionInterface P St K] (exchangeId : ExchangeId)
    (tradingPair : TradingPair) (s : P × St) : PositionCall K → P × St
  | .addPosition price qty =>
    PositionInterface.addPosition s.1 s.2 exchangeId tradingPair price qty
  | .removePosition price qty =>
    PositionInterface.removePosition s.1 s.2 exchangeId tradingPair price qty

/-! ### The net mode -/

section Net

variable {R U K : Type} [Field K] [LinearOrder K] [PnlRealizedStorageInterface R K]
  [PnlUnRealizedStorageInterface U K]

/-- `NetPositionStrategyDefault::Add`: the new average price, net quantity and storages. -/
def NetPositionStrategyDefault.add (storages : PnlStorages R U) (exchangeId : ExchangeId)
    (tradingPair : TradingPair) (avgPrice netQty price qty : K) : K × K × PnlStorages R U :=
  let totalValue := netQty * avgPrice + qty * price
  let netQty := netQty + qty
  let avgPrice := totalValue / netQty
  (avgPrice, netQty, { storages with
    unrealized := updatePosition storages.unrealized exchangeId tradingPair avgPrice netQty })

/-- `NetPositionStrategyDefault::Remove`. -/
def NetPositionStrategyDefault.remove (storages : PnlStorages R U) (exchangeId : ExchangeId)
    (tradingPair : TradingPair) (avgPrice netQty price qty : K) : K × K × PnlStorages R U :=
  -- the profit is fixed against the position before the removal
  let fixed := fixProfit storages.realized exchangeId tradingPair avgPrice netQty price qty
  let netQty := netQty - qty
  let avgPrice := if netQty ≠ 0 then (avgPrice * (netQty + qty) - price * qty) / netQty else 0
  (avgPrice, netQty, {
    realized := fixed.1
    unrealized := updatePosition storages.unrealized exchangeId tradingPair avgPrice netQty })

/-- `NetPositionDefault`. -/
structure NetPositionDefault (K : Type) where
  netQty : K
  avgPrice : K
  deriving DecidableEq, Repr

namespace NetPositionDefault

omit [LinearOrder K] in
/-- The constructor. -/
def new : NetPositionDefault K where
  netQty := 0
  avgPrice := 0

def addPosition (p : NetPositionDefault K) (storages : PnlStorages R U) (exchangeId : ExchangeId)
    (tradingPair : TradingPair) (price qty : K) : NetPositionDefault K × PnlStorages R U :=
  let r := NetPositionStrategyDefault.add storages exchangeId tradingPair p.avgPrice p.netQty price
    qty
  ({ avgPrice := r.1, netQty := r.2.1 }, r.2.2)

def removePosition (p : NetPositionDefault K) (storages : PnlStorages R U) (exchangeId : ExchangeId)
    (tradingPair : TradingPair) (price qty : K) : NetPositionDefault K × PnlStorages R U :=
  let r := NetPositionStrategyDefault.remove storages exchangeId tradingPair p.avgPrice p.netQty
    price qty
  ({ avgPrice := r.1, netQty := r.2.1 }, r.2.2)

def isEmpty (p : NetPositionDefault K) : Bool := p.netQty = 0

end NetPositionDefault

instance : PositionInterface (NetPositionDefault K) (PnlStorages R U) K where
  addPosition := NetPositionDefault.addPosition
  removePosition := NetPositionDefault.removePosition
  isEmpty := NetPositionDefault.isEmpty

end Net

/-! ### The hedged mode -/

/-- The slot of the short leg. -/
abbrev shortSlot : Fin 2 := 0

/-- The slot of the long leg. -/
abbrev longSlot : Fin 2 := 1

/-- `1 - idx`. -/
abbrev otherSlot (idx : Fin 2) : Fin 2 := 1 - idx

section Hedged

variable {R U K : Type} [Field K] [LinearOrder K] [PnlRealizedStorageInterface R K]
  [PnlUnRealizedStorageInterface U K]

/-- `HedgedPositionStrategyDefault::Add`. -/
def HedgedPositionStrategyDefault.add (storages : PnlStorages R U) (exchangeId : ExchangeId)
    (tradingPair : TradingPair) (avgPrice netQty : Fin 2 → K) (price qty : K) :
    (Fin 2 → K) × (Fin 2 → K) × PnlStorages R U :=
  let idx : Fin 2 := if 0 < qty then 1 else 0
  let totalValue := netQty idx * avgPrice idx + qty * price
  let netQty := Function.update netQty idx (netQty idx + qty)
  let avgPrice := Function.update avgPrice idx (totalValue / netQty idx)
  (avgPrice, netQty, { storages with
    unrealized :=
      updatePosition storages.unrealized exchangeId tradingPair (avgPrice idx) (netQty idx) })

/-- `HedgedPositionStrategyDefault::Remove`: what the leg does not hold goes to the other slot. -/
def HedgedPositionStrategyDefault.remove (storages : PnlStorages R U) (exchangeId : ExchangeId)
    (tradingPair : TradingPair) (avgPrice netQty : Fin 2 → K) (price qty : K) :
    (Fin 2 → K) × (Fin 2 → K) × PnlStorages R U :=
  let idx : Fin 2 := if 0 < qty then 1 else 0
  let fixed := fixProfit storages.realized exchangeId tradingPair (avgPrice idx) (netQty idx) price
    qty
  let absQty := |qty|
  let removable := min |netQty idx| absQty
  let removable := if qty < 0 then -removable else removable
  let remaining := qty - removable
  let netQty := Function.update netQty idx (netQty idx - removable)
  let avgPrice := Function.update avgPrice idx
    (if 0 < netQty idx then (avgPrice idx * netQty idx - fixed.2) / netQty idx else 0)
  let unrealized :=
    updatePosition storages.unrealized exchangeId tradingPair (avgPrice idx) (netQty idx)
  let netQty := Function.update netQty (1 - idx) (netQty (1 - idx) + remaining)
  let totalValueNewSide := avgPrice (1 - idx) * netQty (1 - idx) + price * remaining
  let avgPrice := Function.update avgPrice (1 - idx)
    (if remaining ≠ 0 then totalValueNewSide / netQty (1 - idx) else avgPrice (1 - idx))
  let unrealized :=
    if remaining ≠ 0 then
      updatePosition unrealized exchangeId tradingPair (avgPrice (1 - idx)) (netQty (1 - idx))
    else
      unrealized
  (avgPrice, netQty, { realized := fixed.1, unrealized })

/-- `HedgedPositionDefault`. -/
structure HedgedPositionDefault (K : Type) where
  netQty : Fin 2 → K
  avgPrice : Fin 2 → K

namespace HedgedPositionDefault

omit [LinearOrder K] in
/-- The constructor. -/
def new : HedgedPositionDefault K where
  netQty _ := 0
  avgPrice _ := 0

def addPosition (p : HedgedPositionDefault K) (storages : PnlStorages R U) (exchangeId : ExchangeId)
    (tradingPair : TradingPair) (price qty : K) : HedgedPositionDefault K × PnlStorages R U :=
  let r := HedgedPositionStrategyDefault.add storages exchangeId tradingPair p.avgPrice p.netQty
    price qty
  ({ avgPrice := r.1, netQty := r.2.1 }, r.2.2)

def removePosition (p : HedgedPositionDefault K) (storages : PnlStorages R U)
    (exchangeId : ExchangeId) (tradingPair : TradingPair) (price qty : K) :
    HedgedPositionDefault K × PnlStorages R U :=
  let r := HedgedPositionStrategyDefault.remove storages exchangeId tradingPair p.avgPrice p.netQty
    price qty
  ({ avgPrice := r.1, netQty := r.2.1 }, r.2.2)

def isEmpty (p : HedgedPositionDefault K) : Bool := p.netQty 0 = 0 ∧ p.netQty 1 = 0

omit [LinearOrder K] in
/-- `GetPosition`. -/
def getPosition (p : HedgedPositionDefault K) : K := p.netQty 0 + p.netQty 1

end HedgedPositionDefault

instance : PositionInterface (HedgedPositionDefault K) (PnlStorages R U) K where
  addPosition := HedgedPositionDefault.addPosition
  removePosition := HedgedPositionDefault.removePosition
  isEmpty := HedgedPositionDefault.isEmpty

end Hedged

end CryptobotAlgo.Aos
