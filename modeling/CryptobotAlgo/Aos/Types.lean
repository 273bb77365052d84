import Mathlib.Logic.Function.Defs
import Mathlib.Tactic.TypeStar

/-!
# Shared types

The identifiers of exchanges and trading pairs, and the raw price levels that market data events
carry.
-/

namespace CryptobotAlgo.Aos

/-- The exchanges the library knows. -/
inductive ExchangeId
  | kBinance
  | kBybit
  | kMexc
  | kInvalid
  deriving DecidableEq, Repr

/-- The trading pairs the library knows; `kCount` marks a pair that has not been set. -/
inductive TradingPair
  | kBTCUSDT
  | kETHUSDT
  | kETHBTC
  | kBTCETH
  | kBNBUSDT
  | kBNBETH
  | kETHBNB
  | kSOLUSDT
  | kSOLBNB
  | kXRPUSDT
  | kADAUSDT
  | kADAXRP
  | kCount
  deriving DecidableEq, Repr

/-- A price level as it arrives in a market data event. -/
structure OrderBookLevelRaw (Price Qty : Type*) where
  price : Price
  qty : Qty
  deriving DecidableEq, Repr

/-- The pair that a getter answers: whether there is a value, and the value. -/
def answer {K : Type} [Zero K] (value : Option K) : Bool × K := (value.isSome, value.getD 0)

theorem answer_injective {K : Type} [Zero K] :
    Function.Injective (answer : Option K → Bool × K) := by
  intro value value' h
  have hfst := congrArg Prod.fst h
  have hsnd := congrArg Prod.snd h
  cases value with
  | none =>
    cases value' with
    | none => rfl
    | some y => exact absurd hfst Bool.false_ne_true
  | some x =>
    cases value' with
    | none => exact absurd hfst.symm Bool.false_ne_true
    | some y => exact congrArg some hsnd

end CryptobotAlgo.Aos
