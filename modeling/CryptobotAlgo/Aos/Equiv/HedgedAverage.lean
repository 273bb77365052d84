import CryptobotAlgo.Aos.Equiv.HedgedPosition
import Mathlib.Algebra.Order.Ring.Abs

/-!
# The average prices of a hedged position

`Remove` rebuilds the average price of the leg that it takes from through the profit it fixes, if
the quantity that is left is positive.  What is left of a short leg is negative, so that its average
price is reset by every partial close.

`keepsCostBasis_iff` says which partial closes keep the cost of their leg.
-/

namespace CryptobotAlgo.Aos

variable {U K : Type} [Field K] [LinearOrder K] [PnlUnRealizedStorageInterface U K]

/-- What is left of the cost of its leg after a partial close, and the other leg as it was. -/
structure CostKept (p p' : HedgedPositionDefault K) (price qty : K) : Prop where
  cost : p'.avgPrice (leg qty) * p'.netQty (leg qty) =
    p.avgPrice (leg qty) * p.netQty (leg qty) - price * qty
  otherAvg : p'.avgPrice (1 - leg qty) = p.avgPrice (1 - leg qty)
  otherQty : p'.netQty (1 - leg qty) = p.netQty (1 - leg qty)

/-- A partial close, where the legs have their signs, keeps the cost. -/
def KeepsCostBasis (exchangeId : ExchangeId) (tradingPair : TradingPair)
    (s : HedgedPositionState (RealizedPnlStorageDefault K) U K) (c : PositionCall K) : Prop :=
  ∀ price qty, c = .removePosition price qty → SignsHold s.1 →
    |qty| < |s.1.netQty (leg qty)| →
    CostKept s.1 (c.apply exchangeId tradingPair s).1 price qty

/-- A partial close takes from the long leg, or pays what the whole short leg has cost. -/
def LongOrWholeCost (s : HedgedPositionState (RealizedPnlStorageDefault K) U K)
    (c : PositionCall K) : Prop :=
  ∀ price qty, c = .removePosition price qty → SignsHold s.1 →
    |qty| < |s.1.netQty (leg qty)| →
    0 < qty ∨ s.1.avgPrice shortSlot * s.1.netQty shortSlot = price * qty

section Step

variable (exchangeId : ExchangeId) (tradingPair : TradingPair)
  (s : HedgedPositionState (RealizedPnlStorageDefault K) U K) (price : K) {qty : K}

/-- Where everything is removable, only the average price of the leg changes. -/
theorem avgPrice_removePosition {idx : Fin 2} (h : leg qty = idx)
    (hall : removable (s.1.netQty idx) qty = qty) :
    ((PositionCall.removePosition price qty).apply exchangeId tradingPair s).1.avgPrice =
      Function.update s.1.avgPrice idx
        (if 0 < s.1.netQty idx - qty then
          (s.1.avgPrice idx * (s.1.netQty idx - qty) - qty * (price - s.1.avgPrice idx)) /
            (s.1.netQty idx - qty)
        else 0) := by
  have hne : 1 - idx ≠ idx := otherSlot_ne idx
  show (HedgedPositionStrategyDefault.remove s.2 exchangeId tradingPair s.1.avgPrice s.1.netQty
    price qty).1 = _
  have hprofit : (fixProfit s.2.realized exchangeId tradingPair (s.1.avgPrice idx) (s.1.netQty idx)
      price qty).2 = removable (s.1.netQty idx) qty * (price - s.1.avgPrice idx) := rfl
  unfold HedgedPositionStrategyDefault.remove
  unfold leg at h
  unfold removable at hall hprofit
  simp only [h, hprofit, hall, Function.update_self, sub_self, ne_eq, not_true_eq_false, if_false]
  exact Function.update_eq_self ..

variable [IsStrictOrderedRing K] {exchangeId tradingPair s price}

omit [PnlUnRealizedStorageInterface U K] in
/-- A partial close leaves something of its leg, with the sign of the leg. -/
theorem partial_rest (hsigns : SignsHold s.1) (hless : |qty| < |s.1.netQty (leg qty)|) :
    0 < s.1.netQty (leg qty) - qty ↔ 0 < qty := by
  rcases lt_or_ge 0 qty with hpos | hneg
  · rw [leg_of_pos hpos, abs_of_pos hpos, abs_of_nonneg hsigns.long] at hless
    rw [leg_of_pos hpos]
    exact iff_of_true (sub_pos.mpr hless) hpos
  · rw [leg_of_nonpos hneg, abs_of_nonpos hneg, abs_of_nonpos hsigns.short, neg_lt_neg_iff]
      at hless
    rw [leg_of_nonpos hneg]
    exact iff_of_false (sub_neg.mpr hless).not_gt hneg.not_gt

/-- The average price of the long leg is rebuilt so that its cost is kept; that of the short leg is
reset. -/
theorem costKept_iff (hsigns : SignsHold s.1) (hless : |qty| < |s.1.netQty (leg qty)|) :
    CostKept s.1 ((PositionCall.removePosition price qty).apply exchangeId tradingPair s).1 price
        qty ↔
      0 < qty ∨ s.1.avgPrice 0 * s.1.netQty 0 = price * qty := by
  have hne : 1 - leg qty ≠ leg qty := otherSlot_ne _
  have hall := (removable_eq_iff (s.1.netQty (leg qty)) qty).mpr hless.le
  have havg := avgPrice_removePosition exchangeId tradingPair s price rfl hall
  have hnet := netQty_removePosition exchangeId tradingPair s price (rfl : leg qty = leg qty)
  rw [hall, sub_self, add_zero] at hnet
  have hcost : CostKept s.1
      ((PositionCall.removePosition price qty).apply exchangeId tradingPair s).1 price qty ↔
      (if 0 < s.1.netQty (leg qty) - qty then
          (s.1.avgPrice (leg qty) * (s.1.netQty (leg qty) - qty) -
            qty * (price - s.1.avgPrice (leg qty))) / (s.1.netQty (leg qty) - qty)
        else 0) * (s.1.netQty (leg qty) - qty) =
      s.1.avgPrice (leg qty) * s.1.netQty (leg qty) - price * qty := by
    constructor
    · intro h
      have hkept := h.cost
      rw [havg, hnet, Function.update_self, Function.update_of_ne hne.symm,
        Function.update_self] at hkept
      exact hkept
    · intro h
      refine ⟨?_, ?_, ?_⟩
      · rw [havg, hnet, Function.update_self, Function.update_of_ne hne.symm, Function.update_self]
        exact h
      · rw [havg, Function.update_of_ne hne]
      · rw [hnet, Function.update_self]
  rw [hcost]
  rcases lt_or_ge 0 qty with hpos | hneg
  · have hrest := (partial_rest hsigns hless).mpr hpos
    rw [if_pos hrest, div_mul_cancel₀ _ hrest.ne']
    exact iff_of_true (by ring) (.inl hpos)
  · have hrest : ¬ 0 < s.1.netQty (leg qty) - qty := fun h =>
      hneg.not_gt ((partial_rest hsigns hless).mp h)
    rw [if_neg hrest, zero_mul, leg_of_nonpos hneg, eq_comm, sub_eq_zero]
    exact (or_iff_right hneg.not_gt).symm

end Step

/-- **Partial closes**: all along a run, the partial closes keep the cost of their leg exactly when
each of them takes from the long leg, or pays exactly what the whole short leg has cost. -/
theorem keepsCostBasis_iff [IsStrictOrderedRing K] (exchangeId : ExchangeId)
    (tradingPair : TradingPair) (st : PnlStorages (RealizedPnlStorageDefault K) U)
    (calls : List (PositionCall K)) :
    (hedgedPositionMachine exchangeId tradingPair).AllSteps (KeepsCostBasis exchangeId tradingPair)
        (.new, st) calls ↔
      (hedgedPositionMachine exchangeId tradingPair).AllSteps LongOrWholeCost (.new, st) calls := by
  have hstep : ∀ s c, KeepsCostBasis (U := U) exchangeId tradingPair s c ↔
      LongOrWholeCost s c := by
    intro s c
    refine forall_congr' fun price => forall_congr' fun qty => forall_congr' fun hc => ?_
    subst hc
    exact forall_congr' fun hsigns => forall_congr' fun hless => costKept_iff hsigns hless
  rw [Machine.allSteps_iff, Machine.allSteps_iff]
  simp only [hstep]

/-- `2` are sold short at `100`, and `1` is bought back at `110`. -/
def partialShort : List (PositionCall ℚ) := [.addPosition 100 (-2), .removePosition 110 (-1)]

/-- The position after the sale: `2` short, at an average of `100`. -/
def soldShort :
    HedgedPositionState (RealizedPnlStorageDefault ℚ) (HedgedUnRealizedPnlStorageDefault ℚ) ℚ :=
  ((hedgedPositionMachine .kBinance .kBTCUSDT).step flatHedged (.addPosition 100 (-2))).1

theorem partialShort_signs : SignsHold soldShort.1 := ⟨by decide +kernel, by decide +kernel⟩

theorem partialShort_partial : |(-1 : ℚ)| < |soldShort.1.netQty (leg (-1 : ℚ))| := by
  decide +kernel

theorem keepsCostBasis_iff_partialShort :
    (hedgedPositionMachine .kBinance .kBTCUSDT).AllSteps (KeepsCostBasis .kBinance .kBTCUSDT)
        flatHedged partialShort ↔
      (hedgedPositionMachine .kBinance .kBTCUSDT).AllSteps LongOrWholeCost flatHedged
        partialShort :=
  keepsCostBasis_iff _ _ _ partialShort

/-- The average price of what is left of the short leg is `0`. -/
theorem partialShort_resets :
    ¬ (hedgedPositionMachine .kBinance .kBTCUSDT).AllSteps (KeepsCostBasis .kBinance .kBTCUSDT)
      flatHedged partialShort := by
  rintro ⟨-, hkept, -⟩
  have hcost := (hkept 110 (-1) rfl partialShort_signs partialShort_partial).cost
  have hnet : (0 : ℚ) = -90 := by
    refine Eq.trans ?_ (hcost.trans ?_)
    · decide +kernel
    · decide +kernel
  norm_num at hnet

end CryptobotAlgo.Aos
