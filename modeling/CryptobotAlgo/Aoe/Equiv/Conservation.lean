import CryptobotAlgo.Aoe.ExecutionEvent
import CryptobotAlgo.Aos.Equiv.Position
import CryptobotAlgo.Machine.Basic
import Mathlib.Data.List.Induction
import Mathlib.Tactic.LinearCombination
import Mathlib.Tactic.Ring

/-!
# Executed quantity on the derivatives markets

Linear and futures executions move the net quantity of a position: a sell is accepted as
`AddPosition` of the negated quantity, a buy as `RemovePosition` of the negated quantity.  The
storage does not create a position for `RemovePosition`, so a buy that finds none is lost.

`net_conservation_iff` says, for any storages of profit, that the net quantity is the bought less
the sold quantity all along a run exactly when no buy with a quantity is lost.
-/

namespace CryptobotAlgo.Aoe

open Aos PositionStorageByPair

/-- An execution on a derivatives market. -/
inductive Trade (K : Type)
  | buy (execPrice execQty : K) (tradingPair : TradingPair)
  | sell (execPrice execQty : K) (tradingPair : TradingPair)
  deriving DecidableEq, Repr

/-- The event of the Bybit class for the trade. -/
def Bybit.tradeEvent {K : Type} : Trade K → ExecutionEvent K
  | .buy execPrice execQty tradingPair =>
    executionEventLinearBuyDefault execPrice execQty tradingPair
  | .sell execPrice execQty tradingPair =>
    executionEventLinearSellDefault execPrice execQty tradingPair

/-- The event of the Binance class for the trade. -/
def Binance.tradeEvent {K : Type} : Trade K → ExecutionEvent K
  | .buy execPrice execQty tradingPair =>
    executionEventFuturesBuyDefault execPrice execQty tradingPair
  | .sell execPrice execQty tradingPair =>
    executionEventFuturesSellDefault execPrice execQty tradingPair

section Sums

variable {K : Type} [Field K]

/-- The bought quantity of the pair. -/
def bought (pair : TradingPair) : List (Trade K) → K
  | [] => 0
  | .buy _ qty tradingPair :: ts => (if tradingPair = pair then qty else 0) + bought pair ts
  | .sell _ _ _ :: ts => bought pair ts

/-- The sold quantity of the pair. -/
def sold (pair : TradingPair) : List (Trade K) → K
  | [] => 0
  | .buy _ _ _ :: ts => sold pair ts
  | .sell _ qty tradingPair :: ts => (if tradingPair = pair then qty else 0) + sold pair ts

theorem bought_append (pair : TradingPair) (ts ts' : List (Trade K)) :
    bought pair (ts ++ ts') = bought pair ts + bought pair ts' := by
  induction ts with
  | nil => simp [bought]
  | cons t ts ih =>
    cases t with
    | buy price qty p => rw [List.cons_append, bought, bought, ih, add_assoc]
    | sell price qty p => rw [List.cons_append, bought, bought, ih]

theorem sold_append (pair : TradingPair) (ts ts' : List (Trade K)) :
    sold pair (ts ++ ts') = sold pair ts + sold pair ts' := by
  induction ts with
  | nil => simp [sold]
  | cons t ts ih =>
    cases t with
    | buy price qty p => rw [List.cons_append, sold, sold, ih]
    | sell price qty p => rw [List.cons_append, sold, sold, ih, add_assoc]

end Sums

variable {R U K : Type} [Field K] [LinearOrder K] [PnlRealizedStorageInterface R K]
  [PnlUnRealizedStorageInterface U K]

/-- The position storage and the storages of profit. -/
abbrev NetState (R U K : Type) := PositionStorageByPair (NetPositionDefault K) × PnlStorages R U

omit [LinearOrder K] [PnlRealizedStorageInterface R K] [PnlUnRealizedStorageInterface U K] in
/-- No position. -/
def NetState.flat (st : PnlStorages R U) : NetState R U K := ({ positionFactory := .new }, st)

/-- The storage accepts the events of the trades one by one. -/
def tradeMachine (event : Trade K → ExecutionEvent K) :
    Machine (NetState R U K) (Trade K) Unit where
  enabled _ _ := True
  step s t := ((event t).accept s, [])

/-- The storage holds the bought less the sold quantity of the pair. -/
def Conserved (event : Trade K → ExecutionEvent K) (exchange : ExchangeId) (pair : TradingPair)
    (st : PnlStorages R U) (ts : List (Trade K)) : Prop :=
  ((tradeMachine event).final (NetState.flat st) ts).1.heldQty (exchange, pair) =
    bought pair ts - sold pair ts

/-- A buy of the pair finds a position, or has no quantity. -/
def BuyFindsPosition (exchange : ExchangeId) (pair : TradingPair) (s : NetState R U K) :
    Trade K → Prop
  | .buy _ qty tradingPair =>
    tradingPair = pair → s.1.getPosition exchange pair = none → qty = 0
  | .sell _ _ _ => True

/-! ### One trade -/

/-- The event of a trade at an exchange. -/
def derivativeEvent (exchange : ExchangeId) : Trade K → ExecutionEvent K
  | .buy execPrice execQty tradingPair =>
    ⟨.derivativeBuy, execPrice, execQty, exchange, tradingPair⟩
  | .sell execPrice execQty tradingPair =>
    ⟨.derivativeSell, execPrice, execQty, exchange, tradingPair⟩

section Step

variable {exchange : ExchangeId} {pair : TradingPair} {s : NetState R U K}

theorem positionFactory_accept (t : Trade K) :
    ((derivativeEvent exchange t).accept s).1.positionFactory = s.1.positionFactory := by
  cases t with
  | buy price qty p => exact removePosition_positionFactory ..
  | sell price qty p => exact addPosition_positionFactory ..

/-- A sell subtracts its quantity. -/
theorem heldQty_sell (h : s.1.positionFactory = .new) (price qty : K) (p : TradingPair) :
    ((derivativeEvent exchange (.sell price qty p)).accept s).1.heldQty (exchange, pair) =
      s.1.heldQty (exchange, pair) - sold pair [.sell price qty p] := by
  rw [sold, sold, add_zero]
  split_ifs with hp
  · subst hp
    rw [sub_eq_add_neg]
    exact heldQty_addPosition s.2 exchange p price (-qty) h
  · rw [sub_zero]
    exact heldQty_addPosition_of_ne s.2 exchange p price (-qty) fun heq =>
      hp (congrArg Prod.snd heq).symm

/-- A buy that finds a position adds its quantity. -/
theorem heldQty_buy (price qty : K) (p : TradingPair)
    (h : p = pair → s.1.getPosition exchange pair ≠ none) :
    ((derivativeEvent exchange (.buy price qty p)).accept s).1.heldQty (exchange, pair) =
      s.1.heldQty (exchange, pair) + bought pair [.buy price qty p] := by
  rw [bought, bought, add_zero]
  split_ifs with hp
  · subst hp
    obtain ⟨position, hposition⟩ := Option.ne_none_iff_exists'.mp (h rfl)
    rw [← sub_neg_eq_add]
    exact heldQty_removePosition s.2 exchange p price (-qty) hposition
  · rw [add_zero]
    exact heldQty_removePosition_of_ne s.2 exchange p price (-qty) fun heq =>
      hp (congrArg Prod.snd heq).symm

/-- A buy that finds no position is lost. -/
theorem accept_buy_of_none (price qty : K) (h : s.1.getPosition exchange pair = none) :
    (derivativeEvent exchange (.buy price qty pair)).accept s = s :=
  congrArg Prod.fst (removePosition_of_none s.1 s.2 exchange pair price (-qty) h)

end Step

/-! ### Runs -/

section Runs

variable {exchange : ExchangeId} {pair : TradingPair} (st : PnlStorages R U)

theorem positionFactory_final (ts : List (Trade K)) :
    ((tradeMachine (derivativeEvent exchange)).final (NetState.flat st) ts).1.positionFactory =
      .new := by
  induction ts using List.reverseRecOn with
  | nil => rfl
  | append_singleton ts t ih =>
    rw [Machine.final_concat]
    exact (positionFactory_accept t).trans ih

/-- One more trade keeps the quantity right exactly when it meets the condition. -/
theorem conserved_concat_iff {ts : List (Trade K)} {t : Trade K}
    (h : Conserved (derivativeEvent exchange) exchange pair st ts) :
    Conserved (derivativeEvent exchange) exchange pair st (ts ++ [t]) ↔
      BuyFindsPosition exchange pair
        ((tradeMachine (derivativeEvent exchange)).final (NetState.flat st) ts) t := by
  unfold Conserved at h ⊢
  rw [Machine.final_concat, bought_append, sold_append]
  cases t with
  | sell price qty p =>
    refine iff_of_true ?_ trivial
    refine (heldQty_sell (positionFactory_final st ts) price qty p).trans ?_
    rw [h, bought, bought]
    ring
  | buy price qty p =>
    rw [sold, sold]
    by_cases hlost : p = pair ∧
      ((tradeMachine (derivativeEvent exchange)).final (NetState.flat st) ts).1.getPosition exchange
        pair = none
    · -- a lost buy changes nothing, so it is right exactly if it has no quantity
      obtain ⟨rfl, hnone⟩ := hlost
      have hsame := congrArg (fun s => s.1.heldQty (exchange, p))
        (accept_buy_of_none price qty hnone)
      rw [bought, bought, if_pos rfl]
      constructor
      · intro hnext _ _
        have heq := (hsame.symm.trans hnext).symm.trans h
        linear_combination heq
      · intro ht
        have hzero : qty = 0 := ht rfl hnone
        refine hsame.trans ?_
        rw [h, hzero]
        ring
    · refine iff_of_true ?_ fun hp hnone => absurd ⟨hp, hnone⟩ hlost
      refine (heldQty_buy price qty p fun hp hnone => hlost ⟨hp, hnone⟩).trans ?_
      rw [h]
      ring

/-- The quantity is right all along a run exactly when every trade meets the condition. -/
theorem conserved_iff (ts : List (Trade K)) :
    (∀ pre post, ts = pre ++ post → Conserved (derivativeEvent exchange) exchange pair st pre) ↔
      (tradeMachine (derivativeEvent exchange)).AllSteps (BuyFindsPosition exchange pair)
        (NetState.flat st) ts := by
  have hflat : Conserved (derivativeEvent exchange) exchange pair st ([] : List (Trade K)) := by
    simp [Conserved, bought, sold, NetState.flat, heldQty]
  rw [Machine.allSteps_iff]
  exact Machine.forall_prefix_iff hflat fun pre t post _ hpre => conserved_concat_iff st hpre

end Runs

/-! ### The two exchanges -/

omit [Field K] [LinearOrder K] in
theorem Bybit.tradeEvent_eq : (Bybit.tradeEvent : Trade K → ExecutionEvent K) =
    derivativeEvent .kBybit := by
  ext1 t
  cases t <;> rfl

omit [Field K] [LinearOrder K] in
theorem Binance.tradeEvent_eq : (Binance.tradeEvent : Trade K → ExecutionEvent K) =
    derivativeEvent .kBinance := by
  ext1 t
  cases t <;> rfl

/-- **Conservation**: for both exchanges, the storage holds the bought less the sold quantity of a
pair after every part of a run exactly when every buy of the pair finds a position or has no
quantity. -/
theorem net_conservation_iff (pair : TradingPair) (st : PnlStorages R U) (ts : List (Trade K)) :
    ((∀ pre post, ts = pre ++ post → Conserved Bybit.tradeEvent .kBybit pair st pre) ↔
      (tradeMachine Bybit.tradeEvent).AllSteps (BuyFindsPosition .kBybit pair)
        (NetState.flat st) ts) ∧
    ((∀ pre post, ts = pre ++ post → Conserved Binance.tradeEvent .kBinance pair st pre) ↔
      (tradeMachine Binance.tradeEvent).AllSteps (BuyFindsPosition .kBinance pair)
        (NetState.flat st) ts) := by
  rw [Bybit.tradeEvent_eq, Binance.tradeEvent_eq]
  exact ⟨conserved_iff st ts, conserved_iff st ts⟩

/-- The first trade buys `2`: the storage holds nothing afterwards. -/
theorem first_buy_lost :
    ¬ Conserved Bybit.tradeEvent .kBybit .kBTCUSDT
        (⟨{}, {}⟩ : PnlStorages (RealizedPnlStorageDefault ℚ) (NetUnRealizedPnlStorageDefault ℚ))
        [.buy 100 2 .kBTCUSDT] ∧
      ¬ Conserved Binance.tradeEvent .kBinance .kBTCUSDT
        (⟨{}, {}⟩ : PnlStorages (RealizedPnlStorageDefault ℚ) (NetUnRealizedPnlStorageDefault ℚ))
        [.buy 100 2 .kBTCUSDT] := by
  constructor
  · intro h
    have hzero : (0 : ℚ) = 2 + 0 - 0 := h
    norm_num at hzero
  · intro h
    have hzero : (0 : ℚ) = 2 + 0 - 0 := h
    norm_num at hzero

end CryptobotAlgo.Aoe
