import CryptobotAlgo.Aos.Position

/-!
# Execution events

An execution event reports that a part of an order has been filled.  Each exchange has a class for
each kind of event; the classes of the two exchanges have the same text up to their names and the
exchange id, and differ among themselves in the sign of `ExecQty` and in the call that `Accept`
makes on the position storage.
-/

namespace CryptobotAlgo.Aoe

open Aos

/-- The kinds of execution events.  A derivative is a linear contract at Bybit and a future at
Binance. -/
inductive ExecutionKind
  | default
  | spotSell
  | spotBuy
  | derivativeSell
  | derivativeBuy
  deriving DecidableEq, Repr

/-- The data of an execution event that `Accept` reads. -/
structure ExecutionEvent (K : Type) where
  kind : ExecutionKind
  execPrice : K
  /-- The member `exec_qty_`, without a sign. -/
  execQtyAbs : K
  exchangeId : ExchangeId
  tradingPair : TradingPair
  deriving DecidableEq, Repr

namespace ExecutionEvent

variable {K P St : Type} [Field K]

/-- `ExecQty`: the two kinds for derivatives negate it. -/
def execQty (e : ExecutionEvent K) : K :=
  match e.kind with
  | .default => 0
  | .spotSell => e.execQtyAbs
  | .spotBuy => e.execQtyAbs
  | .derivativeSell => -e.execQtyAbs
  | .derivativeBuy => -e.execQtyAbs

/-- `Accept`. -/
def accept [PositionInterface P St K] (e : ExecutionEvent K)
    (storage : PositionStorageByPair P × St) : PositionStorageByPair P × St :=
  match e.kind with
  | .default => storage
  | .spotSell => (storage.1.removePosition storage.2 e.exchangeId e.tradingPair e.execPrice
      e.execQty).1
  | .spotBuy => storage.1.addPosition storage.2 e.exchangeId e.tradingPair e.execPrice e.execQty
  | .derivativeSell =>
    storage.1.addPosition storage.2 e.exchangeId e.tradingPair e.execPrice e.execQty
  | .derivativeBuy => (storage.1.removePosition storage.2 e.exchangeId e.tradingPair e.execPrice
      e.execQty).1

end ExecutionEvent

section Classes

variable {K : Type} (execPrice execQty : K) (tradingPair : TradingPair)

/-- `ExecutionEventLinearSellDefault`. -/
def Bybit.executionEventLinearSellDefault : ExecutionEvent K :=
  ⟨.derivativeSell, execPrice, execQty, .kBybit, tradingPair⟩

/-- `ExecutionEventLinearBuyDefault`. -/
def Bybit.executionEventLinearBuyDefault : ExecutionEvent K :=
  ⟨.derivativeBuy, execPrice, execQty, .kBybit, tradingPair⟩

/-- `ExecutionEventFuturesSellDefault`. -/
def Binance.executionEventFuturesSellDefault : ExecutionEvent K :=
  ⟨.derivativeSell, execPrice, execQty, .kBinance, tradingPair⟩

/-- `ExecutionEventFuturesBuyDefault`. -/
def Binance.executionEventFuturesBuyDefault : ExecutionEvent K :=
  ⟨.derivativeBuy, execPrice, execQty, .kBinance, tradingPair⟩

end Classes

end CryptobotAlgo.Aoe
