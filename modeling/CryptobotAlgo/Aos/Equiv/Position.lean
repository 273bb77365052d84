import CryptobotAlgo.Aos.Position

/-!
# What the position storage holds in the net mode

`heldQty` is the net quantity that the storage holds for a key.  `AddPosition` adds to it and
`RemovePosition` subtracts from it, unless there is no position to remove from; neither touches
another key.
-/

namespace CryptobotAlgo.Aos.PositionStorageByPair

section Frame

variable {P St K : Type} [PositionInterface P St K] (s : PositionStorageByPair P) (st : St)
  (exchange : ExchangeId) (tradingPair : TradingPair) (price qty : K)

@[simp] theorem addPosition_positionFactory :
    (s.addPosition st exchange tradingPair price qty).1.positionFactory = s.positionFactory := rfl

@[simp] theorem removePosition_positionFactory :
    (s.removePosition st exchange tradingPair price qty).1.1.positionFactory =
      s.positionFactory := by
  unfold removePosition
  dsimp only
  split <;> rfl

/-- `AddPosition` touches the position of its own key only. -/
theorem addPosition_storagePosition_of_ne {key : Key} (h : key ≠ (exchange, tradingPair)) :
    (s.addPosition st exchange tradingPair price qty).1.storagePosition key =
      s.storagePosition key :=
  Function.update_of_ne h _ _

theorem removePosition_storagePosition_of_ne {key : Key} (h : key ≠ (exchange, tradingPair)) :
    (s.removePosition st exchange tradingPair price qty).1.1.storagePosition key =
      s.storagePosition key := by
  unfold removePosition
  dsimp only
  split
  · rfl
  · exact Function.update_of_ne h _ _

/-- `RemovePosition` does nothing where there is no position. -/
theorem removePosition_of_none (h : s.storagePosition (exchange, tradingPair) = none) :
    s.removePosition st exchange tradingPair price qty = ((s, st), false) := by
  unfold removePosition
  dsimp only
  rw [h]

end Frame

section Net

variable {R U K : Type} [Field K] [LinearOrder K] [PnlRealizedStorageInterface R K]
  [PnlUnRealizedStorageInterface U K] {s : PositionStorageByPair (NetPositionDefault K)}

omit [LinearOrder K] in
/-- The net quantity held for a key, `0` when it has no entry. -/
def heldQty (s : PositionStorageByPair (NetPositionDefault K)) (key : Key) : K :=
  ((s.storagePosition key).map NetPositionDefault.netQty).getD 0

omit [LinearOrder K] in
theorem heldQty_of_none {key : Key} (h : s.storagePosition key = none) : s.heldQty key = 0 := by
  unfold heldQty
  rw [h]
  rfl

omit [LinearOrder K] in
theorem heldQty_of_some {key : Key} {p : NetPositionDefault K}
    (h : s.storagePosition key = some p) : s.heldQty key = p.netQty := by
  unfold heldQty
  rw [h]
  rfl

variable (st : PnlStorages R U) (exchange : ExchangeId) (tradingPair : TradingPair) (price qty : K)

/-- `AddPosition` keeps the quantity of another key. -/
theorem heldQty_addPosition_of_ne {key : Key} (h : key ≠ (exchange, tradingPair)) :
    (s.addPosition st exchange tradingPair price qty).1.heldQty key = s.heldQty key := by
  unfold heldQty
  rw [addPosition_storagePosition_of_ne s st exchange tradingPair price qty h]

/-- `RemovePosition` keeps the quantity of another key. -/
theorem heldQty_removePosition_of_ne {key : Key} (h : key ≠ (exchange, tradingPair)) :
    (s.removePosition st exchange tradingPair price qty).1.1.heldQty key = s.heldQty key := by
  unfold heldQty
  rw [removePosition_storagePosition_of_ne s st exchange tradingPair price qty h]

/-- `AddPosition` adds the quantity, to `0` if the position is new. -/
theorem heldQty_addPosition (h : s.positionFactory = .new) :
    (s.addPosition st exchange tradingPair price qty).1.heldQty (exchange, tradingPair) =
      s.heldQty (exchange, tradingPair) + qty := by
  rw [heldQty_of_some (Function.update_self ..)]
  show ((s.storagePosition (exchange, tradingPair)).getD s.positionFactory).netQty + qty = _
  cases hpos : s.storagePosition (exchange, tradingPair) with
  | none =>
    rw [heldQty_of_none hpos, h]
    rfl
  | some p =>
    rw [heldQty_of_some hpos]
    rfl

/-- `RemovePosition` subtracts the quantity; an entry is erased only when it holds `0`. -/
theorem heldQty_removePosition {p : NetPositionDefault K}
    (h : s.storagePosition (exchange, tradingPair) = some p) :
    (s.removePosition st exchange tradingPair price qty).1.1.heldQty (exchange, tradingPair) =
      s.heldQty (exchange, tradingPair) - qty := by
  rw [heldQty_of_some h]
  by_cases hzero : p.netQty - qty = 0
  · -- the position is empty, and its entry is erased
    rw [heldQty_of_none, hzero]
    simp [removePosition, h, PositionInterface.removePosition, NetPositionDefault.removePosition,
      PositionInterface.isEmpty, NetPositionDefault.isEmpty, NetPositionStrategyDefault.remove,
      hzero]
  · rw [heldQty, removePosition, h]
    simp [PositionInterface.removePosition, NetPositionDefault.removePosition,
      PositionInterface.isEmpty, NetPositionDefault.isEmpty, NetPositionStrategyDefault.remove,
      hzero]

end Net

end CryptobotAlgo.Aos.PositionStorageByPair
