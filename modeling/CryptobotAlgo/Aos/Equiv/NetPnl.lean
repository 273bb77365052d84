import CryptobotAlgo.Aos.Position
import CryptobotAlgo.Machine.Potential
import Mathlib.Algebra.Order.AbsoluteValue.Basic
import Mathlib.Algebra.Order.Ring.Rat
import Mathlib.Tactic.LinearCombination
import Mathlib.Tactic.NormNum.Basic
import Mathlib.Tactic.Ring

/-!
# The profit of a net position

`RemovePosition` fixes the profit of what it removes and, where the position stays open, takes the
proceeds out of the cost as well, so that the average price is the price at which the whole trade
since the last flat position breaks even.  A profit fixed there is thus in the realized profit and,
through the average price, in the unrealized one.

`net_pnl_identity` says what the two add up to: the cash flow, the value of the net quantity, and
once more the profits fixed by removals that left the position open (`keptProfit`).
-/

namespace CryptobotAlgo.Aos

/-- The signed cash flow of a call. -/
def PositionCall.cashFlow {K : Type} [Field K] : PositionCall K → K
  | .addPosition price qty => -(price * qty)
  | .removePosition price qty => price * qty

section Calculators

variable {K : Type} [Field K] [LinearOrder K] [IsStrictOrderedRing K]

omit [IsStrictOrderedRing K] in
/-- At one mark price the unrealized profit is the value less the cost. -/
theorem UnRealizedPnlCalculatorDefault.calculate_mark (avgPrice netQty m : K) :
    calculate avgPrice netQty m m = netQty * m - avgPrice * netQty := by
  unfold calculate
  dsimp only
  split_ifs
  · ring
  · ring

/-- A removal of the whole quantity fixes the proceeds less the cost. -/
theorem RealizedPnlCalculatorDefault.calculate_all (avgPrice price qty : K) :
    calculate avgPrice qty price qty = price * qty - avgPrice * qty := by
  have hqty : (if qty < 0 then -min |qty| |qty| else min |qty| |qty|) = qty := by
    rw [min_self]
    split_ifs with hneg
    · rw [abs_of_neg hneg, neg_neg]
    · exact abs_of_nonneg (not_lt.mp hneg)
  show (if qty < 0 then -min |qty| |qty| else min |qty| |qty|) * (price - avgPrice) = _
  rw [hqty]
  ring

omit [IsStrictOrderedRing K] in
/-- `FixProfit` adds what it returns. -/
theorem RealizedPnlStorageDefault.getRealizedPnl_fixProfit (s : RealizedPnlStorageDefault K)
    (exchange : ExchangeId) (tradingPair : TradingPair) (avgPrice netQty price qty : K) :
    ((s.fixProfit exchange tradingPair avgPrice netQty price qty).1.getRealizedPnl exchange
        tradingPair).2 =
      (s.getRealizedPnl exchange tradingPair).2 +
        RealizedPnlCalculatorDefault.calculate avgPrice netQty price qty := by
  unfold getRealizedPnl fixProfit
  dsimp only
  rw [Function.update_self]
  cases s.realizedPnl (exchange, tradingPair) with
  | none => rfl
  | some pnl => rfl

end Calculators

/-! ### Runs -/

variable {U K : Type} [Field K] [LinearOrder K] [PnlUnRealizedStorageInterface U K]

/-- A position and the storages behind its strategy. -/
abbrev NetPositionState (U K : Type) :=
  NetPositionDefault K × PnlStorages (RealizedPnlStorageDefault K) U

/-- Calls on one position; none divides by zero. -/
def netPositionMachine (exchangeId : ExchangeId) (tradingPair : TradingPair) :
    Machine (NetPositionState U K) (PositionCall K) Unit where
  enabled
    | s, .addPosition _ qty => s.1.netQty + qty ≠ 0
    | _, .removePosition _ _ => True
  step s c := (c.apply exchangeId tradingPair s, [])

/-- The profit that a removal fixes although it leaves the position open. -/
def keptProfit (s : NetPositionState U K) : PositionCall K → K
  | .addPosition _ _ => 0
  | .removePosition price qty =>
    if s.1.netQty - qty = 0 then
      0
    else
      RealizedPnlCalculatorDefault.calculate s.1.avgPrice s.1.netQty price qty

/-- The realized profit of the key, less the cost of the position. -/
def realizedLessCost (exchangeId : ExchangeId) (tradingPair : TradingPair)
    (s : NetPositionState U K) : K :=
  (s.2.realized.getRealizedPnl exchangeId tradingPair).2 - s.1.avgPrice * s.1.netQty

variable {exchangeId : ExchangeId} {tradingPair : TradingPair} (s : NetPositionState U K)

/-- An addition moves its cash flow into the cost. -/
theorem realizedLessCost_add {price qty : K} (h : s.1.netQty + qty ≠ 0) :
    realizedLessCost exchangeId tradingPair
        ((PositionCall.addPosition price qty).apply exchangeId tradingPair s) =
      realizedLessCost exchangeId tradingPair s - price * qty := by
  have hcost : (s.1.netQty * s.1.avgPrice + qty * price) / (s.1.netQty + qty) *
      (s.1.netQty + qty) = s.1.netQty * s.1.avgPrice + qty * price := div_mul_cancel₀ _ h
  show (s.2.realized.getRealizedPnl exchangeId tradingPair).2 -
      (s.1.netQty * s.1.avgPrice + qty * price) / (s.1.netQty + qty) * (s.1.netQty + qty) = _
  rw [hcost, realizedLessCost]
  ring

/-- A removal moves its cash flow out of the cost; what it fixes stays only if it leaves the
position open. -/
theorem realizedLessCost_remove [IsStrictOrderedRing K] (price qty : K) :
    realizedLessCost exchangeId tradingPair
        ((PositionCall.removePosition price qty).apply exchangeId tradingPair s) =
      realizedLessCost exchangeId tradingPair s +
        (price * qty + keptProfit s (.removePosition price qty)) := by
  have hfixed := s.2.realized.getRealizedPnl_fixProfit exchangeId tradingPair s.1.avgPrice
    s.1.netQty price qty
  show ((s.2.realized.fixProfit exchangeId tradingPair s.1.avgPrice s.1.netQty price
      qty).1.getRealizedPnl exchangeId tradingPair).2 -
    (if s.1.netQty - qty ≠ 0 then
      (s.1.avgPrice * (s.1.netQty - qty + qty) - price * qty) / (s.1.netQty - qty) else 0) *
      (s.1.netQty - qty) = _
  rw [hfixed, realizedLessCost, keptProfit]
  by_cases hclosed : s.1.netQty - qty = 0
  · -- everything is removed: the profit is the cash flow less the cost
    have hqty : s.1.netQty = qty := sub_eq_zero.mp hclosed
    rw [if_neg (not_not.mpr hclosed), if_pos hclosed, hqty,
      RealizedPnlCalculatorDefault.calculate_all]
    ring
  · have hcost : (s.1.avgPrice * (s.1.netQty - qty + qty) - price * qty) / (s.1.netQty - qty) *
        (s.1.netQty - qty) = s.1.avgPrice * (s.1.netQty - qty + qty) - price * qty :=
      div_mul_cancel₀ _ hclosed
    rw [if_pos hclosed, if_neg hclosed, hcost]
    ring

/-- **Realized and unrealized profit**: for a position that starts flat, the realized profit and the
unrealized profit at a mark price `m` add up to the cash flow, the value of the net quantity at `m`
and the profits fixed by removals that left the position open. -/
theorem net_pnl_identity [IsStrictOrderedRing K]
    (st : PnlStorages (RealizedPnlStorageDefault K) U) (calls : List (PositionCall K))
    (h : (netPositionMachine exchangeId tradingPair).Legal (.new, st) calls) (m : K) :
    let s := (netPositionMachine exchangeId tradingPair).final (.new, st) calls
    (s.2.realized.getRealizedPnl exchangeId tradingPair).2 -
        (st.realized.getRealizedPnl exchangeId tradingPair).2 +
        UnRealizedPnlCalculatorDefault.calculate s.1.avgPrice s.1.netQty m m =
      (calls.map PositionCall.cashFlow).sum + s.1.netQty * m +
        (netPositionMachine exchangeId tradingPair).sumSteps keptProfit (.new, st) calls := by
  intro s
  have hstep : ∀ (s : NetPositionState U K) (c : PositionCall K),
      (netPositionMachine exchangeId tradingPair).enabled s c →
      realizedLessCost exchangeId tradingPair
          ((netPositionMachine exchangeId tradingPair).step s c).1 =
        realizedLessCost exchangeId tradingPair s + (c.cashFlow + keptProfit s c) := by
    intro s c hc
    cases c with
    | addPosition price qty =>
      refine (realizedLessCost_add s hc).trans ?_
      rw [PositionCall.cashFlow, keptProfit]
      ring
    | removePosition price qty => exact realizedLessCost_remove s price qty
  have hrun := Machine.potential _ _ hstep h
  rw [Machine.sumSteps_add, Machine.sumSteps_event] at hrun
  have hflat : realizedLessCost exchangeId tradingPair ((.new, st) : NetPositionState U K) =
      (st.realized.getRealizedPnl exchangeId tradingPair).2 - 0 * 0 := rfl
  rw [hflat, realizedLessCost] at hrun
  rw [UnRealizedPnlCalculatorDefault.calculate_mark]
  linear_combination hrun

/-- The storages of a default strategy, with nothing in them. -/
def emptyStorages :
    PnlStorages (RealizedPnlStorageDefault ℚ) (NetUnRealizedPnlStorageDefault ℚ) :=
  ⟨{}, {}⟩

/-- `3` are bought at `100` and `1` is sold at `120`. -/
def partialClose : List (PositionCall ℚ) := [.addPosition 100 3, .removePosition 120 1]

/-- No division by zero happens in it. -/
theorem partialClose_legal : (netPositionMachine .kBinance .kBTCUSDT).Legal
    ((.new, emptyStorages) : NetPositionState (NetUnRealizedPnlStorageDefault ℚ) ℚ)
    partialClose := by
  refine ⟨?_, trivial, trivial⟩
  show (0 : ℚ) + 3 ≠ 0
  norm_num

theorem net_pnl_identity_partialClose :
    let s := (netPositionMachine .kBinance .kBTCUSDT).final
      ((.new, emptyStorages) : NetPositionState (NetUnRealizedPnlStorageDefault ℚ) ℚ) partialClose
    (s.2.realized.getRealizedPnl .kBinance .kBTCUSDT).2 -
        (emptyStorages.realized.getRealizedPnl .kBinance .kBTCUSDT).2 +
        UnRealizedPnlCalculatorDefault.calculate s.1.avgPrice s.1.netQty 120 120 =
      (partialClose.map PositionCall.cashFlow).sum + s.1.netQty * 120 +
        (netPositionMachine .kBinance .kBTCUSDT).sumSteps keptProfit (.new, emptyStorages)
          partialClose :=
  net_pnl_identity emptyStorages partialClose partialClose_legal 120

/-- The realized profit is `20` and the average price falls to `90`, so that the two profits add up
to `80` where the cash flow and the value of what is left make `60`. -/
theorem partialClose_counted_twice :
    let s := (netPositionMachine .kBinance .kBTCUSDT).final
      ((.new, emptyStorages) : NetPositionState (NetUnRealizedPnlStorageDefault ℚ) ℚ) partialClose
    (netPositionMachine .kBinance .kBTCUSDT).Legal
        ((.new, emptyStorages) : NetPositionState (NetUnRealizedPnlStorageDefault ℚ) ℚ)
        partialClose ∧
      ¬ (s.2.realized.getRealizedPnl .kBinance .kBTCUSDT).2 +
          UnRealizedPnlCalculatorDefault.calculate s.1.avgPrice s.1.netQty 120 120 =
        (partialClose.map PositionCall.cashFlow).sum + s.1.netQty * 120 := by
  intro s
  refine ⟨partialClose_legal, ?_⟩
  have hrealized : (s.2.realized.getRealizedPnl .kBinance .kBTCUSDT).2 = 20 := by decide +kernel
  have hunrealized :
      UnRealizedPnlCalculatorDefault.calculate s.1.avgPrice s.1.netQty 120 120 = 60 := by
    decide +kernel
  have hcash : (partialClose.map PositionCall.cashFlow).sum + s.1.netQty * 120 = 60 := by
    decide +kernel
  rw [hrealized, hunrealized, hcash]
  norm_num

end CryptobotAlgo.Aos
