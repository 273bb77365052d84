import CryptobotAlgo.Aos.Types

/-!
# Keys of markets

The strategy knows a market by a number of 64 bits: the exchange, the category, the network and the
trading pair, each at its place.  The enumerations are given by their values, and any value of the
underlying type can occur.
-/

namespace CryptobotAlgo.Aoe

open Aos

def ExchangeId.value : ExchangeId → UInt16
  | .kBinance => 0
  | .kBybit => 1
  | .kMexc => 2
  | .kInvalid => 3

/-- `HashKey` of both exchanges; `market` is the category, converted to 64 bits. -/
def hashKey (exchangeId : UInt16) (market : UInt64) (net : UInt8) (pair : UInt32) : UInt64 :=
  (exchangeId.toUInt64 <<< 48) ||| (market <<< 40) ||| (net.toUInt64 <<< 32) ||| pair.toUInt64

def Binance.hashKey (market : UInt8) (net : UInt8) (pair : UInt32) : UInt64 :=
  Aoe.hashKey (ExchangeId.value .kBinance) market.toUInt64 net pair

/-- The category of Bybit is an `int`. -/
def Bybit.hashKey (market : Int32) (net : UInt8) (pair : UInt32) : UInt64 :=
  Aoe.hashKey (ExchangeId.value .kBybit) market.toInt64.toUInt64 net pair

/-- What `DecomposeHash` sets. -/
structure HashComponents where
  exchangeId : UInt16
  categoryMarket : UInt8
  net : UInt8
  tradingPair : UInt32
  deriving DecidableEq, Repr

def decomposeHash (hash : UInt64) : HashComponents where
  tradingPair := (hash &&& 0xFFFFFFFF).toUInt32
  net := ((hash >>> 32) &&& 0xFF).toUInt8
  categoryMarket := ((hash >>> 40) &&& 0xFF).toUInt8
  exchangeId := ((hash >>> 48) &&& 0xFF).toUInt16

end CryptobotAlgo.Aoe
