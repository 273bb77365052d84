import CryptobotAlgo.Aos.Trackers
import Mathlib.Algebra.Order.Group.Unbundled.Abs

/-!
# The deviation from the average

The tracker of the deviation has no state of its own: it asks the tracker of the average.  The
ratio is computed in two places; `IsDeviationRatioAboveThreshold` divides by the average,
`GetDeviationRatioAbs` by its absolute value.
-/

namespace CryptobotAlgo.Aos

variable {H T : Type} [Field T] [LinearOrder T]

/-- `DeviationTrackerDefault`. -/
structure DeviationTrackerDefault (H T : Type) where
  avgTracker : AvgTrackerDefault H T

namespace DeviationTrackerDefault

/-- `GetDeviation`. -/
def getDeviation (t : DeviationTrackerDefault H T) (hashAsset : H) (value : T) : Bool × T :=
  let (status, avg) := t.avgTracker.getAvg hashAsset
  if !status then (false, 0) else (true, value - avg)

/-- `IsDeviationRatioAboveThreshold`. -/
def isDeviationRatioAboveThreshold (t : DeviationTrackerDefault H T) (hashAsset : H) (value : T)
    (givenThreshold : T) : Bool × Bool :=
  let (status, avg) := t.avgTracker.getAvg hashAsset
  if !status then (false, false)
  else if avg = 0 then (false, false)
  else
    let deviation := value - avg
    let threshold := |deviation| / avg
    (true, threshold > givenThreshold)

/-- `GetDeviationRatio`. -/
def getDeviationRatio (t : DeviationTrackerDefault H T) (hashAsset : H) (value : T) : Bool × T :=
  let (status, avg) := t.avgTracker.getAvg hashAsset
  if !status || avg = 0 then (false, 0) else (true, (value - avg) / avg)

/-- `GetDeviationPercent`. -/
def getDeviationPercent (t : DeviationTrackerDefault H T) (hashAsset : H) (value : T) : Bool × T :=
  let (status, avg) := t.avgTracker.getAvg hashAsset
  if !status || avg = 0 then (false, 0) else (true, (value - avg) / avg * 100)

/-- `GetDeviationRatioAbs`. -/
def getDeviationRatioAbs (t : DeviationTrackerDefault H T) (hashAsset : H) (value : T) :
    Bool × T :=
  let (status, avg) := t.avgTracker.getAvg hashAsset
  if !status || avg = 0 then (false, 0) else (true, |value - avg| / |avg|)

/-- `GetDeviationPercentAbs`. -/
def getDeviationPercentAbs (t : DeviationTrackerDefault H T) (hashAsset : H) (value : T) :
    Bool × T :=
  let (status, avg) := t.avgTracker.getAvg hashAsset
  if !status || avg = 0 then (false, 0) else (true, |value - avg| / |avg| * 100)

end DeviationTrackerDefault

end CryptobotAlgo.Aos
