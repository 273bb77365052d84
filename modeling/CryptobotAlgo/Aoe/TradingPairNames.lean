import CryptobotAlgo.Aos.Types
import Mathlib.Data.Nat.Notation

/-!
# Names of trading pairs

The converters from a trading pair look it up at its own value in a `std::array` of `kCount`
entries.  The arrays have entries for ten of the twelve pairs, one after the other; what comes after
them is zero.
-/

namespace CryptobotAlgo.Aoe

open Aos

/-- The value of the enumeration; `std::hash` is the same. -/
def TradingPair.value : TradingPair → ℕ
  | .kBTCUSDT => 0
  | .kETHUSDT => 1
  | .kETHBTC => 2
  | .kBTCETH => 3
  | .kBNBUSDT => 4
  | .kBNBETH => 5
  | .kETHBNB => 6
  | .kSOLUSDT => 7
  | .kSOLBNB => 8
  | .kXRPUSDT => 9
  | .kADAUSDT => 10
  | .kADAXRP => 11
  | .kCount => 12

/-- `Convert` of the two classes below, which differ in `kDictionary`; `none` is the status
`false`. -/
def convertPair (kDictionary : List (TradingPair × String)) (tradingPair : TradingPair) :
    Option String :=
  let index := TradingPair.value tradingPair
  let entry := kDictionary.getD index (.kBTCUSDT, "")
  if index < TradingPair.value .kCount ∧ entry.1 = tradingPair then some entry.2 else none

namespace TradingPairToBigStringView

def kDictionary : List (TradingPair × String) :=
  [(.kBTCUSDT, "BTCUSDT"), (.kETHUSDT, "ETHUSDT"), (.kETHBTC, "ETHBTC"), (.kBNBUSDT, "BNBUSDT"),
    (.kBNBETH, "BNBETH"), (.kSOLUSDT, "SOLUSDT"), (.kSOLBNB, "SOLBNB"), (.kXRPUSDT, "XRPUSDT"),
    (.kADAUSDT, "ADAUSDT"), (.kADAXRP, "ADAXRP")]

def convert (tradingPair : TradingPair) : Option String := convertPair kDictionary tradingPair

end TradingPairToBigStringView

namespace TradingPairToSmallStringView

def kDictionary : List (TradingPair × String) :=
  [(.kBTCUSDT, "btcusdt"), (.kETHUSDT, "ethusdt"), (.kETHBTC, "ethbtc"), (.kBNBUSDT, "bnbusdt"),
    (.kBNBETH, "bnbeth"), (.kSOLUSDT, "solusdt"), (.kSOLBNB, "solbnb"), (.kXRPUSDT, "xrpusdt"),
    (.kADAUSDT, "adausdt"), (.kADAXRP, "adaxrp")]

def convert (tradingPair : TradingPair) : Option String := convertPair kDictionary tradingPair

end TradingPairToSmallStringView

inductive Ticker
  | kBTC
  | kETH
  | kUSDT
  | kBNB
  | kSOL
  | kXRP
  | kADA
  | kCount
  deriving DecidableEq, Repr

/-- The value of the enumeration. -/
def Ticker.value : Ticker → ℕ
  | .kBTC => 0
  | .kETH => 1
  | .kUSDT => 2
  | .kBNB => 3
  | .kSOL => 4
  | .kXRP => 5
  | .kADA => 6
  | .kCount => 7

def kTradingPairMap : List (Ticker × Ticker) :=
  [(.kBTC, .kUSDT), (.kETH, .kUSDT), (.kETH, .kBTC), (.kBNB, .kUSDT), (.kBNB, .kETH),
    (.kSOL, .kUSDT), (.kSOL, .kBNB), (.kXRP, .kUSDT), (.kADA, .kUSDT), (.kADA, .kXRP)]

/-- `TradingPairToTickers`; `none` is the status `false`. -/
def tradingPairToTickers (id : TradingPair) : Option (Ticker × Ticker) :=
  let index := TradingPair.value id
  if index < TradingPair.value .kCount then some (kTradingPairMap.getD index (.kBTC, .kBTC))
  else none

/-- `FlatIndex`. -/
def flatIndex (base quote : Ticker) : ℕ := base.value * Ticker.value .kCount + quote.value

/-- The assignments that fill `kReverseMapFlat`; the rest of it is `kCount`. -/
def kReverseMapFlat : List (ℕ × TradingPair) :=
  [(flatIndex .kBTC .kUSDT, .kBTCUSDT), (flatIndex .kETH .kUSDT, .kETHUSDT),
    (flatIndex .kETH .kBTC, .kETHBTC), (flatIndex .kETH .kBNB, .kETHBNB),
    (flatIndex .kBTC .kETH, .kBTCETH), (flatIndex .kBNB .kUSDT, .kBNBUSDT),
    (flatIndex .kBNB .kETH, .kBNBETH), (flatIndex .kSOL .kUSDT, .kSOLUSDT),
    (flatIndex .kSOL .kBNB, .kSOLBNB), (flatIndex .kXRP .kUSDT, .kXRPUSDT),
    (flatIndex .kADA .kUSDT, .kADAUSDT), (flatIndex .kADA .kXRP, .kADAXRP)]

/-- `TickersToTradingPair`, for tickers other than `kCount`; `none` is the status `false`. -/
def tickersToTradingPair (base quote : Ticker) : Option TradingPair :=
  kReverseMapFlat.lookup (flatIndex base quote)

end CryptobotAlgo.Aoe
