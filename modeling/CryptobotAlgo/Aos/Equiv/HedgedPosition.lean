import CryptobotAlgo.Aos.Position
import CryptobotAlgo.Machine.Basic
import Mathlib.Algebra.Order.AbsoluteValue.Basic
import Mathlib.Algebra.Order.Ring.Rat
import Mathlib.Tactic.LinearCombination
import Mathlib.Tactic.NormNum.Basic
import Mathlib.Tactic.Ring

/-!
# The quantities of a hedged position

`Remove` takes from the leg of its side what that leg holds, and adds the remainder to the other
slot with the sign of the quantity that was removed.  A removal of more than the leg holds therefore
turns a long position into a positive quantity of the short slot.

`hedged_accounting_iff` says that the signs of the slots hold and that every call moves the position
by its quantity all along a run exactly when no removal exceeds its leg.
-/

namespace CryptobotAlgo.Aos

variable {R U K : Type} [Field K] [LinearOrder K] [PnlRealizedStorageInterface R K]
  [PnlUnRealizedStorageInterface U K]

/-- The slot that a call with the quantity `qty` is about. -/
def leg (qty : K) : Fin 2 := if 0 < qty then longSlot else shortSlot

/-- What `Remove` takes from a leg that holds `held`. -/
def removable (held qty : K) : K := if qty < 0 then -min |held| |qty| else min |held| |qty|

/-- A position and the storages behind its strategy. -/
abbrev HedgedPositionState (R U K : Type) := HedgedPositionDefault K × PnlStorages R U

/-- Calls on one position; no addition of the quantity `0`. -/
def hedgedPositionMachine (exchangeId : ExchangeId) (tradingPair : TradingPair) :
    Machine (HedgedPositionState R U K) (PositionCall K) Unit where
  enabled
    | _, .addPosition _ qty => qty ≠ 0
    | _, .removePosition _ _ => True
  step s c := (c.apply exchangeId tradingPair s, [])

/-- The short slot is not positive, and the long slot not negative. -/
structure SignsHold (p : HedgedPositionDefault K) : Prop where
  short : p.netQty 0 ≤ 0
  long : 0 ≤ p.netQty 1

/-- What a call is to add to the position. -/
def PositionCall.change : PositionCall K → K
  | .addPosition _ qty => qty
  | .removePosition _ qty => -qty

/-- After the call the signs hold, and the position has changed by what the call says. -/
def Accounted (exchangeId : ExchangeId) (tradingPair : TradingPair) (s : HedgedPositionState R U K)
    (c : PositionCall K) : Prop :=
  SignsHold (c.apply exchangeId tradingPair s).1 ∧
    (c.apply exchangeId tradingPair s).1.getPosition = s.1.getPosition + c.change

/-- A removal does not exceed the leg of its side. -/
def WithinLeg (s : HedgedPositionState R U K) : PositionCall K → Prop
  | .addPosition _ _ => True
  | .removePosition _ qty => |qty| ≤ |s.1.netQty (leg qty)|

section Step

variable (exchangeId : ExchangeId) (tradingPair : TradingPair) (s : HedgedPositionState R U K)
  (price : K) {qty : K}

theorem leg_of_pos (h : 0 < qty) : leg qty = 1 := if_pos h

theorem leg_of_nonpos (h : qty ≤ 0) : leg qty = 0 := if_neg (not_lt.mpr h)

theorem otherSlot_ne : ∀ idx : Fin 2, 1 - idx ≠ idx := by decide

/-- A quantity is added to the slot of its side. -/
theorem netQty_addPosition {idx : Fin 2} (h : leg qty = idx) :
    ((PositionCall.addPosition price qty).apply exchangeId tradingPair s).1.netQty =
      Function.update s.1.netQty idx (s.1.netQty idx + qty) := by
  rw [← h]
  rfl

theorem netQty_addPosition_of_pos (h : 0 < qty) :
    ((PositionCall.addPosition price qty).apply exchangeId tradingPair s).1.netQty =
      Function.update s.1.netQty 1 (s.1.netQty 1 + qty) :=
  netQty_addPosition exchangeId tradingPair s price (leg_of_pos h)

theorem netQty_addPosition_of_nonpos (h : qty ≤ 0) :
    ((PositionCall.addPosition price qty).apply exchangeId tradingPair s).1.netQty =
      Function.update s.1.netQty 0 (s.1.netQty 0 + qty) :=
  netQty_addPosition exchangeId tradingPair s price (leg_of_nonpos h)

/-- A quantity is removed from the slot of its side, and the remainder added to the other one. -/
theorem netQty_removePosition {idx : Fin 2} (h : leg qty = idx) :
    ((PositionCall.removePosition price qty).apply exchangeId tradingPair s).1.netQty =
      Function.update
        (Function.update s.1.netQty idx (s.1.netQty idx - removable (s.1.netQty idx) qty)) (1 - idx)
        (s.1.netQty (1 - idx) + (qty - removable (s.1.netQty idx) qty)) := by
  have hne : 1 - idx ≠ idx := otherSlot_ne idx
  show (HedgedPositionStrategyDefault.remove s.2 exchangeId tradingPair s.1.avgPrice s.1.netQty
    price qty).2.1 = _
  unfold HedgedPositionStrategyDefault.remove
  unfold leg at h
  simp only [h, Function.update_of_ne hne]
  rfl

theorem netQty_removePosition_of_pos (h : 0 < qty) :
    ((PositionCall.removePosition price qty).apply exchangeId tradingPair s).1.netQty =
      Function.update
        (Function.update s.1.netQty 1 (s.1.netQty 1 - removable (s.1.netQty 1) qty)) 0
        (s.1.netQty 0 + (qty - removable (s.1.netQty 1) qty)) :=
  netQty_removePosition exchangeId tradingPair s price (leg_of_pos h)

theorem netQty_removePosition_of_nonpos (h : qty ≤ 0) :
    ((PositionCall.removePosition price qty).apply exchangeId tradingPair s).1.netQty =
      Function.update
        (Function.update s.1.netQty 0 (s.1.netQty 0 - removable (s.1.netQty 0) qty)) 1
        (s.1.netQty 1 + (qty - removable (s.1.netQty 0) qty)) :=
  netQty_removePosition exchangeId tradingPair s price (leg_of_nonpos h)

theorem getPosition_addPosition :
    ((PositionCall.addPosition price qty).apply exchangeId tradingPair s).1.getPosition =
      s.1.getPosition + qty := by
  unfold HedgedPositionDefault.getPosition
  rcases lt_or_ge 0 qty with hpos | hneg
  · rw [netQty_addPosition_of_pos exchangeId tradingPair s price hpos, Function.update_self,
      Function.update_of_ne (by decide)]
    ring
  · rw [netQty_addPosition_of_nonpos exchangeId tradingPair s price hneg, Function.update_self,
      Function.update_of_ne (by decide)]
    ring

/-- What is removable leaves the position, and the remainder comes into it. -/
theorem getPosition_removePosition :
    ((PositionCall.removePosition price qty).apply exchangeId tradingPair s).1.getPosition =
      s.1.getPosition + -qty + 2 * (qty - removable (s.1.netQty (leg qty)) qty) := by
  unfold HedgedPositionDefault.getPosition
  rcases lt_or_ge 0 qty with hpos | hneg
  · rw [netQty_removePosition_of_pos exchangeId tradingPair s price hpos, leg_of_pos hpos,
      Function.update_self, Function.update_of_ne (by decide), Function.update_self]
    ring
  · rw [netQty_removePosition_of_nonpos exchangeId tradingPair s price hneg, leg_of_nonpos hneg,
      Function.update_self, Function.update_of_ne (by decide), Function.update_self]
    ring

end Step

variable [IsStrictOrderedRing K]

/-- Everything is removable exactly when the leg holds that much. -/
theorem removable_eq_iff (held qty : K) : removable held qty = qty ↔ |qty| ≤ |held| := by
  have hmin : min |held| |qty| = |qty| ↔ |qty| ≤ |held| := min_eq_right_iff
  unfold removable
  split_ifs with hneg
  · rw [neg_eq_iff_eq_neg, ← abs_of_neg hneg, hmin]
  · have hqty : |qty| = qty := abs_of_nonneg (not_lt.mp hneg)
    rw [← hmin, hqty]

/-- A long leg that holds less than is removed is emptied. -/
theorem removable_of_lt {held qty : K} (hheld : 0 ≤ held) (h : held < qty) :
    removable held qty = held := by
  have hqty : 0 < qty := hheld.trans_lt h
  unfold removable
  rw [if_neg hqty.not_gt, abs_of_nonneg hheld, abs_of_pos hqty, min_eq_left h.le]

/-- From a long leg that holds as much as is removed, everything is removable. -/
theorem removable_of_le {held qty : K} (hqty : 0 < qty) (h : qty ≤ held) :
    removable held qty = qty := by
  rw [removable_eq_iff, abs_of_pos hqty, abs_of_pos (hqty.trans_le h)]
  exact h

variable {exchangeId : ExchangeId} {tradingPair : TradingPair} {s : HedgedPositionState R U K}

/-- The signs hold after an addition. -/
theorem SignsHold.addPosition (h : SignsHold s.1) (price qty : K) :
    SignsHold ((PositionCall.addPosition price qty).apply exchangeId tradingPair s).1 := by
  obtain ⟨hshort, hlong⟩ := h
  rcases lt_or_ge 0 qty with hpos | hneg
  · have hnet := netQty_addPosition_of_pos exchangeId tradingPair s price hpos
    constructor
    · rw [hnet, Function.update_of_ne (by decide)]
      exact hshort
    · rw [hnet, Function.update_self]
      exact add_nonneg hlong hpos.le
  · have hnet := netQty_addPosition_of_nonpos exchangeId tradingPair s price hneg
    constructor
    · rw [hnet, Function.update_self]
      exact add_nonpos hshort hneg
    · rw [hnet, Function.update_of_ne (by decide)]
      exact hlong

/-- The signs hold after a removal that does not exceed its leg. -/
theorem SignsHold.removePosition (h : SignsHold s.1) {price qty : K}
    (hwithin : |qty| ≤ |s.1.netQty (leg qty)|) :
    SignsHold ((PositionCall.removePosition price qty).apply exchangeId tradingPair s).1 := by
  obtain ⟨hshort, hlong⟩ := h
  have hall := (removable_eq_iff _ qty).mpr hwithin
  rcases lt_or_ge 0 qty with hpos | hneg
  · have hnet := netQty_removePosition_of_pos exchangeId tradingPair s price hpos
    rw [leg_of_pos hpos] at hall hwithin
    rw [abs_of_pos hpos, abs_of_nonneg hlong] at hwithin
    rw [hall, sub_self, add_zero] at hnet
    constructor
    · rw [hnet, Function.update_self]
      exact hshort
    · rw [hnet, Function.update_of_ne (by decide), Function.update_self]
      exact sub_nonneg.mpr hwithin
  · have hnet := netQty_removePosition_of_nonpos exchangeId tradingPair s price hneg
    rw [leg_of_nonpos hneg] at hall hwithin
    rw [abs_of_nonpos hneg, abs_of_nonpos hshort] at hwithin
    rw [hall, sub_self, add_zero] at hnet
    constructor
    · rw [hnet, Function.update_of_ne (by decide), Function.update_self]
      exact sub_nonpos.mpr (neg_le_neg_iff.mp hwithin)
    · rw [hnet, Function.update_self]
      exact hlong

/-- Where the signs hold, a call is accounted for exactly when it does not exceed its leg. -/
theorem accounted_iff (h : SignsHold s.1) (c : PositionCall K) :
    Accounted exchangeId tradingPair s c ↔ WithinLeg s c := by
  cases c with
  | addPosition price qty =>
    refine iff_of_true ⟨h.addPosition price qty, ?_⟩ trivial
    exact getPosition_addPosition exchangeId tradingPair s price
  | removePosition price qty =>
    rw [WithinLeg, ← removable_eq_iff]
    constructor
    · rintro ⟨-, hposition⟩
      rw [getPosition_removePosition, PositionCall.change] at hposition
      linear_combination -(1 / 2 : K) * hposition
    · intro hall
      refine ⟨h.removePosition ((removable_eq_iff _ qty).mp hall), ?_⟩
      rw [getPosition_removePosition, hall, PositionCall.change]
      ring

/-- **Accounting**: for a position that starts flat, the signs of the slots hold and every call
changes the position by its quantity all along a run exactly when no removal exceeds its leg. -/
theorem hedged_accounting_iff (st : PnlStorages R U) (calls : List (PositionCall K))
    (h : (hedgedPositionMachine exchangeId tradingPair).Legal (.new, st) calls) :
    (hedgedPositionMachine exchangeId tradingPair).AllSteps (Accounted exchangeId tradingPair)
        (.new, st) calls ↔
      (hedgedPositionMachine exchangeId tradingPair).AllSteps WithinLeg (.new, st) calls := by
  apply Machine.allSteps_congr (I := fun s => SignsHold s.1) _ _ _ _ h
  · intro s c hs _
    exact accounted_iff hs c
  · intro s c _ _ hc
    exact hc.1
  · exact ⟨le_refl 0, le_refl 0⟩

/-- The state of a default position that is flat. -/
def flatHedged :
    HedgedPositionState (RealizedPnlStorageDefault ℚ) (HedgedUnRealizedPnlStorageDefault ℚ) ℚ :=
  (.new, ⟨{}, {}⟩)

/-- `10` are bought, and `15` are sold. -/
def flip : List (PositionCall ℚ) := [.addPosition 100 10, .removePosition 110 15]

theorem flip_legal : (hedgedPositionMachine .kBinance .kBTCUSDT).Legal flatHedged flip := by
  refine ⟨?_, trivial, trivial⟩
  show (10 : ℚ) ≠ 0
  norm_num

theorem hedged_accounting_iff_flip :
    (hedgedPositionMachine .kBinance .kBTCUSDT).AllSteps (Accounted .kBinance .kBTCUSDT)
        flatHedged flip ↔
      (hedgedPositionMachine .kBinance .kBTCUSDT).AllSteps WithinLeg flatHedged flip :=
  hedged_accounting_iff _ flip flip_legal

/-- The remainder of `5` is in the short slot with a positive sign, and the position is `5` in the
place of `-5`. -/
theorem flip_not_accounted :
    (hedgedPositionMachine .kBinance .kBTCUSDT).Legal flatHedged flip ∧
      ¬ (hedgedPositionMachine .kBinance .kBTCUSDT).AllSteps (Accounted .kBinance .kBTCUSDT)
        flatHedged flip := by
  refine ⟨flip_legal, ?_⟩
  rintro ⟨-, ⟨hsigns, -⟩, -⟩
  have hshort : (0 : ℚ) + (15 - min |0 + 10| |15|) ≤ 0 := hsigns.short
  norm_num at hshort

end CryptobotAlgo.Aos
