import CryptobotAlgo.Aos.Equiv.HedgedPosition
import CryptobotAlgo.Aos.Equiv.NetPnl
import CryptobotAlgo.Aos.PositionDivision

/-!
# Division by zero in the position strategies

`Remove` divides by what is left of a quantity only where that is not `0`, in both strategies; `Add`
divides by the sum without a test, and so does the part of the hedged `Remove` that adds a remainder
to the other slot.

`checkedRun_isSome_iff` says which runs divide by zero: those with an addition that makes the net
quantity `0`, or the quantity of its slot, and in the hedged mode those with a removal beyond its
leg of exactly what the two slots hold together.
-/

namespace CryptobotAlgo.Aos

variable {R U K : Type} [Field K] [LinearOrder K] [PnlRealizedStorageInterface R K]
  [PnlUnRealizedStorageInterface U K]

/-! ### The strategies -/

section Strategies

variable (storages : PnlStorages R U) (exchangeId : ExchangeId) (tradingPair : TradingPair)

omit [PnlRealizedStorageInterface R K] in
theorem NetPositionStrategyDefault.checkedAdd_eq (avgPrice netQty price qty : K) :
    checkedAdd storages exchangeId tradingPair avgPrice netQty price qty =
      if netQty + qty = 0 then none
      else some (add storages exchangeId tradingPair avgPrice netQty price qty) := by
  unfold checkedAdd checkedDiv
  dsimp only
  split_ifs with hzero
  · rfl
  · rfl

theorem NetPositionStrategyDefault.checkedRemove_eq (avgPrice netQty price qty : K) :
    checkedRemove storages exchangeId tradingPair avgPrice netQty price qty =
      some (remove storages exchangeId tradingPair avgPrice netQty price qty) := by
  unfold checkedRemove checkedDiv remove
  dsimp only
  by_cases hclosed : netQty - qty = 0
  · rw [if_neg (not_not.mpr hclosed), if_neg (not_not.mpr hclosed)]
    rfl
  · rw [if_pos hclosed, if_pos hclosed, if_neg hclosed]
    rfl

omit [PnlRealizedStorageInterface R K] in
theorem HedgedPositionStrategyDefault.checkedAdd_eq (avgPrice netQty : Fin 2 → K)
    (price qty : K) :
    checkedAdd storages exchangeId tradingPair avgPrice netQty price qty =
      if netQty (leg qty) + qty = 0 then none
      else some (add storages exchangeId tradingPair avgPrice netQty price qty) := by
  have hleg : (if 0 < qty then longSlot else shortSlot) = leg qty := rfl
  unfold checkedAdd add checkedDiv
  simp only [hleg, Function.update_self]
  split_ifs with hzero
  · rfl
  · rfl

/-- Of the two divisions only that by the quantity of the other slot can fail. -/
theorem HedgedPositionStrategyDefault.checkedRemove_eq (avgPrice netQty : Fin 2 → K)
    (price qty : K) :
    checkedRemove storages exchangeId tradingPair avgPrice netQty price qty =
      if qty - removable (netQty (leg qty)) qty ≠ 0 ∧
          netQty (1 - leg qty) + (qty - removable (netQty (leg qty)) qty) = 0 then none
      else some (remove storages exchangeId tradingPair avgPrice netQty price qty) := by
  have hne : 1 - leg qty ≠ leg qty := otherSlot_ne _
  have hleg : (if 0 < qty then longSlot else shortSlot) = leg qty := rfl
  have hremovable : (if qty < 0 then -min |netQty (leg qty)| |qty|
      else min |netQty (leg qty)| |qty|) = removable (netQty (leg qty)) qty := rfl
  -- the first division is guarded by its divisor
  have hfirst : ∀ a b : K, (if 0 < b then checkedDiv a b else some 0) =
      some (if 0 < b then a / b else 0) := by
    intro a b
    unfold checkedDiv
    split_ifs with hpos hzero
    · exact absurd hzero hpos.ne'
    · rfl
    · rfl
  unfold checkedRemove remove
  simp only [hleg, otherSlot, hremovable, hfirst, Function.update_self, Function.update_of_ne hne]
  rw [Option.bind_eq_bind, Option.bind_some]
  unfold checkedDiv
  by_cases hrest : qty - removable (netQty (leg qty)) qty = 0
  · simp [hrest]
  · by_cases hzero : netQty (1 - leg qty) + (qty - removable (netQty (leg qty)) qty) = 0
    · simp [hrest, hzero]
    · simp [hrest, hzero]

end Strategies

/-! ### Positions -/

instance : CheckedPosition (NetPositionDefault K) (PnlStorages R U) K where
  checkedAdd := NetPositionDefault.checkedAddPosition
  checkedRemove := NetPositionDefault.checkedRemovePosition
  checkedAdd_some := by
    intro p st exchangeId tradingPair price qty r h
    rw [NetPositionDefault.checkedAddPosition, NetPositionStrategyDefault.checkedAdd_eq] at h
    split_ifs at h
    · cases h
    · exact Option.some.inj h
  checkedRemove_some := by
    intro p st exchangeId tradingPair price qty r h
    rw [NetPositionDefault.checkedRemovePosition, NetPositionStrategyDefault.checkedRemove_eq] at h
    exact Option.some.inj h

instance : CheckedPosition (HedgedPositionDefault K) (PnlStorages R U) K where
  checkedAdd := HedgedPositionDefault.checkedAddPosition
  checkedRemove := HedgedPositionDefault.checkedRemovePosition
  checkedAdd_some := by
    intro p st exchangeId tradingPair price qty r h
    rw [HedgedPositionDefault.checkedAddPosition, HedgedPositionStrategyDefault.checkedAdd_eq] at h
    split_ifs at h
    · cases h
    · exact Option.some.inj h
  checkedRemove_some := by
    intro p st exchangeId tradingPair price qty r h
    rw [HedgedPositionDefault.checkedRemovePosition,
      HedgedPositionStrategyDefault.checkedRemove_eq] at h
    split_ifs at h
    · cases h
    · exact Option.some.inj h

/-- A removal of more than its leg holds is not of exactly what the two slots hold together. -/
structure NotBothSlots (p : HedgedPositionDefault K) (qty : K) : Prop where
  long : |p.netQty longSlot| < qty → p.netQty shortSlot + (qty - |p.netQty longSlot|) ≠ 0
  short : |p.netQty shortSlot| < -qty → p.netQty longSlot + (qty + |p.netQty shortSlot|) ≠ 0

section Positions

variable (p : HedgedPositionDefault K) (storages : PnlStorages R U) (exchangeId : ExchangeId)
  (tradingPair : TradingPair) (price qty : K)

omit [PnlRealizedStorageInterface R K] in
theorem NetPositionDefault.checkedAddPosition_isSome (p : NetPositionDefault K) :
    (p.checkedAddPosition storages exchangeId tradingPair price qty).isSome ↔
      p.netQty + qty ≠ 0 := by
  rw [checkedAddPosition, Option.isSome_map, NetPositionStrategyDefault.checkedAdd_eq]
  split_ifs with hzero
  · simpa using hzero
  · simpa using hzero

theorem NetPositionDefault.checkedRemovePosition_isSome (p : NetPositionDefault K) :
    (p.checkedRemovePosition storages exchangeId tradingPair price qty).isSome := by
  rw [checkedRemovePosition, Option.isSome_map, NetPositionStrategyDefault.checkedRemove_eq]
  rfl

omit [PnlRealizedStorageInterface R K] in
theorem HedgedPositionDefault.checkedAddPosition_isSome :
    (p.checkedAddPosition storages exchangeId tradingPair price qty).isSome ↔
      p.netQty (leg qty) + qty ≠ 0 := by
  rw [checkedAddPosition, Option.isSome_map, HedgedPositionStrategyDefault.checkedAdd_eq]
  split_ifs with hzero
  · simpa using hzero
  · simpa using hzero

variable [IsStrictOrderedRing K]

/-- What comes to the other slot makes it `0`. -/
theorem notBothSlots_iff :
    NotBothSlots p qty ↔ ¬ (qty - removable (p.netQty (leg qty)) qty ≠ 0 ∧
      p.netQty (1 - leg qty) + (qty - removable (p.netQty (leg qty)) qty) = 0) := by
  have hrest : qty - removable (p.netQty (leg qty)) qty ≠ 0 ↔ |p.netQty (leg qty)| < |qty| := by
    rw [sub_ne_zero, ne_comm, Ne, removable_eq_iff, not_le]
  rw [hrest, not_and]
  rcases lt_or_ge 0 qty with hpos | hneg
  · have hshort : ¬ |p.netQty shortSlot| < -qty := fun h =>
      ((abs_nonneg _).trans_lt h).not_gt (neg_neg_of_pos hpos)
    rw [leg_of_pos hpos, abs_of_pos hpos]
    constructor
    · intro h hlt
      rw [removable, if_neg hpos.not_gt, abs_of_pos hpos, min_eq_left hlt.le]
      exact h.long hlt
    · intro h
      refine ⟨fun hlt => ?_, fun hlt => absurd hlt hshort⟩
      have hne := h hlt
      rw [removable, if_neg hpos.not_gt, abs_of_pos hpos, min_eq_left hlt.le] at hne
      exact hne
  · have hlong : ¬ |p.netQty longSlot| < qty := fun h => ((abs_nonneg _).trans_lt h).not_ge hneg
    rw [leg_of_nonpos hneg, abs_of_nonpos hneg]
    have htaken : |p.netQty 0| < -qty → removable (p.netQty 0) qty = -|p.netQty 0| := by
      intro hlt
      have hqty : qty < 0 := neg_pos.mp ((abs_nonneg _).trans_lt hlt)
      rw [removable, if_pos hqty, abs_of_nonpos hneg, min_eq_left hlt.le]
    constructor
    · intro h hlt
      rw [htaken hlt, sub_neg_eq_add]
      exact h.short hlt
    · intro h
      refine ⟨fun hlt => absurd hlt hlong, fun hlt => ?_⟩
      have hne := h hlt
      rw [htaken hlt, sub_neg_eq_add] at hne
      exact hne

theorem HedgedPositionDefault.checkedRemovePosition_isSome :
    (p.checkedRemovePosition storages exchangeId tradingPair price qty).isSome ↔
      NotBothSlots p qty := by
  rw [checkedRemovePosition, Option.isSome_map, HedgedPositionStrategyDefault.checkedRemove_eq,
    notBothSlots_iff]
  split_ifs with hzero
  · simpa using hzero
  · simpa using hzero

end Positions

/-! ### The position storage -/

/-- The position that a call on the key is about: that of the factory where there is none. -/
def PositionStorageByPair.position {P : Type} (s : PositionStorageByPair P) (key : Key) : P :=
  (s.storagePosition key).getD s.positionFactory

section Storage

variable {P St : Type} [PositionInterface P St K] [CheckedPosition P St K]
  (s : PositionStorageByPair P) (st : St) (exchange : ExchangeId) (tradingPair : TradingPair)
  (price qty : K)

omit [Field K] [LinearOrder K] in
theorem PositionStorageByPair.checkedAddPosition_isSome :
    (s.checkedAddPosition st exchange tradingPair price qty).isSome ↔
      (CheckedPosition.checkedAdd (s.position (exchange, tradingPair)) st exchange tradingPair price
        qty).isSome := by
  rw [checkedAddPosition, Option.isSome_map]
  rfl

omit [Field K] [LinearOrder K] in
theorem PositionStorageByPair.checkedRemovePosition_isSome :
    (s.checkedRemovePosition st exchange tradingPair price qty).isSome ↔
      ∀ p, s.storagePosition (exchange, tradingPair) = some p →
        (CheckedPosition.checkedRemove p st exchange tradingPair price qty).isSome := by
  rw [checkedRemovePosition]
  cases hpos : s.storagePosition (exchange, tradingPair) with
  | none => simp
  | some p => simp [Option.isSome_map]

omit [Field K] [LinearOrder K] in
/-- Where a checked call has a value, it is the state after the call. -/
theorem checkedStep_some {s s' : PositionStorageByPair P × St} {c : StorageCall K}
    (h : checkedStep s c = some s') : (storageMachine.step s c).1 = s' := by
  cases c with
  | addPosition exchange tradingPair price qty =>
    obtain ⟨r, hr, hs'⟩ := Option.map_eq_some_iff.mp h
    have hcall := CheckedPosition.checkedAdd_some hr
    rw [← hs', ← hcall]
    rfl
  | removePosition exchange tradingPair price qty =>
    unfold checkedStep PositionStorageByPair.checkedRemovePosition at h
    unfold storageMachine PositionStorageByPair.removePosition
    cases hpos : s.1.storagePosition (exchange, tradingPair) with
    | none =>
      simp only [hpos] at h ⊢
      exact Option.some.inj h
    | some p =>
      simp only [hpos] at h ⊢
      obtain ⟨r, hr, hs'⟩ := Option.map_eq_some_iff.mp h
      have hcall := CheckedPosition.checkedRemove_some hr
      rw [← hs', ← hcall]

omit [Field K] [LinearOrder K] in
/-- A run without a division by zero is a run whose calls are. -/
theorem checkedRun_isSome (s : PositionStorageByPair P × St) (calls : List (StorageCall K)) :
    (checkedRun s calls).isSome ↔
      storageMachine.AllSteps (fun s c => (checkedStep s c).isSome) s calls := by
  rw [checkedRun, Option.isSome_iff_exists]
  simp only [storageMachine.foldlM_eq_some_iff (fun _ _ _ => checkedStep_some)]
  simp

end Storage

/-- An addition does not make the net quantity `0`. -/
def NetDivisorNeZero (s : PositionStorageByPair (NetPositionDefault K) × PnlStorages R U) :
    StorageCall K → Prop
  | .addPosition exchange tradingPair _ qty =>
    (s.1.position (exchange, tradingPair)).netQty + qty ≠ 0
  | .removePosition .. => True

/-- An addition does not make the quantity of its slot `0`, and a removal beyond its leg is not of
exactly what the two slots hold together. -/
def HedgedDivisorNeZero (s : PositionStorageByPair (HedgedPositionDefault K) × PnlStorages R U) :
    StorageCall K → Prop
  | .addPosition exchange tradingPair _ qty =>
    (s.1.position (exchange, tradingPair)).netQty (leg qty) + qty ≠ 0
  | .removePosition exchange tradingPair _ qty =>
    ∀ p, s.1.storagePosition (exchange, tradingPair) = some p → NotBothSlots p qty

variable (K) in
/-- A storage of net positions without an entry. -/
def netPositions : PositionStorageByPair (NetPositionDefault K) := { positionFactory := .new }

variable (K) in
/-- A storage of hedged positions without an entry. -/
def hedgedPositions : PositionStorageByPair (HedgedPositionDefault K) :=
  { positionFactory := .new }

theorem netCheckedStep_isSome
    (s : PositionStorageByPair (NetPositionDefault K) × PnlStorages R U) (c : StorageCall K) :
    (checkedStep s c).isSome ↔ NetDivisorNeZero s c := by
  cases c with
  | addPosition exchange tradingPair price qty =>
    refine (s.1.checkedAddPosition_isSome s.2 exchange tradingPair price qty).trans ?_
    exact NetPositionDefault.checkedAddPosition_isSome ..
  | removePosition exchange tradingPair price qty =>
    refine (s.1.checkedRemovePosition_isSome s.2 exchange tradingPair price qty).trans ?_
    refine iff_of_true (fun p _ => ?_) trivial
    exact NetPositionDefault.checkedRemovePosition_isSome ..

theorem hedgedCheckedStep_isSome [IsStrictOrderedRing K]
    (s : PositionStorageByPair (HedgedPositionDefault K) × PnlStorages R U) (c : StorageCall K) :
    (checkedStep s c).isSome ↔ HedgedDivisorNeZero s c := by
  cases c with
  | addPosition exchange tradingPair price qty =>
    refine (s.1.checkedAddPosition_isSome s.2 exchange tradingPair price qty).trans ?_
    exact HedgedPositionDefault.checkedAddPosition_isSome ..
  | removePosition exchange tradingPair price qty =>
    refine (s.1.checkedRemovePosition_isSome s.2 exchange tradingPair price qty).trans ?_
    refine forall_congr' fun p => forall_congr' fun _ => ?_
    exact HedgedPositionDefault.checkedRemovePosition_isSome ..

/-- **Divisions**: from an empty storage, a run of additions and removals divides by zero nowhere
exactly when all its calls meet `NetDivisorNeZero`, or `HedgedDivisorNeZero` in the hedged mode. -/
theorem checkedRun_isSome_iff [IsStrictOrderedRing K] (st : PnlStorages R U)
    (calls : List (StorageCall K)) :
    ((checkedRun (netPositions K, st) calls).isSome ↔
        storageMachine.AllSteps NetDivisorNeZero (netPositions K, st) calls) ∧
      ((checkedRun (hedgedPositions K, st) calls).isSome ↔
        storageMachine.AllSteps HedgedDivisorNeZero (hedgedPositions K, st) calls) := by
  constructor
  · rw [checkedRun_isSome]
    simp only [netCheckedStep_isSome]
  · rw [checkedRun_isSome]
    simp only [hedgedCheckedStep_isSome]

/-- `1` is bought, and `1` sold short. -/
def addToZero : List (StorageCall ℚ) :=
  [.addPosition .kBinance .kBTCUSDT 100 1, .addPosition .kBinance .kBTCUSDT 110 (-1)]

/-- `10` are bought and `15` sold, so that the short slot holds `5`; then `5` are sold short. -/
def flipThenShort : List (StorageCall ℚ) :=
  [.addPosition .kBinance .kBTCUSDT 100 10, .removePosition .kBinance .kBTCUSDT 110 15,
    .addPosition .kBinance .kBTCUSDT 120 (-5)]

theorem checkedRun_isSome_iff_addToZero :
    ((checkedRun (netPositions ℚ, emptyStorages) addToZero).isSome ↔
        storageMachine.AllSteps NetDivisorNeZero (netPositions ℚ, emptyStorages) addToZero) ∧
      ((checkedRun (hedgedPositions ℚ, emptyStorages) addToZero).isSome ↔
        storageMachine.AllSteps HedgedDivisorNeZero (hedgedPositions ℚ, emptyStorages)
          addToZero) :=
  checkedRun_isSome_iff emptyStorages addToZero

/-- Both strategies divide by zero. -/
theorem addToZero_divides :
    ¬ (checkedRun (netPositions ℚ, emptyStorages) addToZero).isSome ∧
      ¬ (checkedRun (hedgedPositions ℚ, flatHedged.2) flipThenShort).isSome := by
  constructor
  · decide +kernel
  · decide +kernel

end CryptobotAlgo.Aos
