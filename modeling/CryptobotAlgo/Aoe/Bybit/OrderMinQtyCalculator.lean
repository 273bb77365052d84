import CryptobotAlgo.Rounding

/-!
# The least quantity of a Bybit order

`OrderMinQtyCalculator` rounds the greater of the two lower bounds on the quantity up to the step,
and then tests the upper bounds.
-/

namespace CryptobotAlgo.Aoe.Bybit.Spot

/-- `OrderFilterInterface`: the bounds on the quantity and the amount of an order, and the steps of
the quantity and the price. -/
structure OrderFilter (K : Type) where
  minOrderQty : K
  maxOrderQty : K
  minOrderAmt : K
  maxOrderAmt : K
  basePrecission : K
  tickSize : K

namespace OrderMinQtyCalculator

variable {K : Type} [Field K] [LinearOrder K] [FloorRing K]

def roundUpToStep (value step : K) : K := ⌈value / step⌉ * step

/-- The default tolerance of `IsAligned`. -/
def eps {K : Type} [Field K] : K := 1 / 10 ^ 12

def isAligned (value step : K) : Bool :=
  let rounded := roundHalfAway (value / step) * step
  |value - rounded| < eps

/-- `Calculate`: the status and the quantity. -/
def calculate (filter : OrderFilter K) (price : K) : Bool × K :=
  if !isAligned price filter.tickSize then (false, 0)
  else
    let minQtyByAmount := filter.minOrderAmt / price
    let rawQty := max filter.minOrderQty minQtyByAmount
    let steppedQty := roundUpToStep rawQty filter.basePrecission
    if filter.maxOrderQty < steppedQty then (false, 0)
    else
      let notional := steppedQty * price
      if notional < filter.minOrderAmt ∨ filter.maxOrderAmt < notional then (false, 0)
      else (true, steppedQty)

end OrderMinQtyCalculator

end CryptobotAlgo.Aoe.Bybit.Spot
