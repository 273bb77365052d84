import CryptobotAlgo.Aos.DeviationTracker
import CryptobotAlgo.Aos.MutualInformationArithmetic
import CryptobotAlgo.Aos.Strategy
import CryptobotAlgo.Machine.Basic

/-!
# The strategy of deviation and mutual information

For each new value the strategy asks whether it is far enough above the average of its asset, and
whether the asset has had to do with the assets connected to it, in their mutual information.  The
actions to buy and those to sell have the same text, up to the last one, which only logs the hash.

The engine posts the calls to a strand.  It analyses a value to buy, then to sell, and adds it to
the windows last.

The mutual information is computed in an `Arithmetic`, where a width may underflow to `0`; the
averages are exact.
-/

namespace CryptobotAlgo.Aos

/-- `MarketTripletManagerDefault`; a set is a list without repetitions. -/
structure MarketTripletManagerDefault (H : Type) where
  pairs : H → Option (List H) := fun _ => none

namespace MarketTripletManagerDefault

variable {H : Type} [DecidableEq H]

/-- `pairs_[asset].insert(pairedAsset)`. -/
def insert (m : MarketTripletManagerDefault H) (asset pairedAsset : H) :
    MarketTripletManagerDefault H where
  pairs := Function.update m.pairs asset (some (((m.pairs asset).getD []).insert pairedAsset))

/-- `Connect`. -/
def connect (m : MarketTripletManagerDefault H) (assetX assetY : H) :
    MarketTripletManagerDefault H :=
  (m.insert assetX assetY).insert assetY assetX

omit [DecidableEq H] in
/-- `GetPairs`. -/
def getPairs (m : MarketTripletManagerDefault H) (asset : H) : List H := (m.pairs asset).getD []

omit [DecidableEq H] in
/-- `HasPair`. -/
def hasPair (m : MarketTripletManagerDefault H) (asset : H) : Bool := (m.pairs asset).isSome

end MarketTripletManagerDefault

namespace DeviationAndMutualInformation

variable {H K : Type} [DecidableEq H] [Field K] [LinearOrder K]

/-- `Config`. -/
structure Config (H K : Type) where
  windowSize : UInt32
  numberBins : UInt32
  allowedAssetHash : H
  deviationRatioThreshold : K
  miThreshold : K

/-- What the actions of one analysis use and leave. -/
structure Analysis (H K : Type) where
  slidingWindow : SlidingWindowStorageDefault H K
  /-- the hashes that the last action has logged, with the value -/
  needs : List (H × K) := []
  /-- something undefined that has been executed -/
  fault : Option Fault := none

section Actions

variable (A : Arithmetic K K) (market : MarketTripletManagerDefault H) (config : Config H K)

omit [DecidableEq H] in
/-- The average is that of the storage, which has the tracker that the deviations ask. -/
def getDeviationRatio (slidingWindow : SlidingWindowStorageDefault H K) (hash : H) (value : K) :
    Bool × K :=
  DeviationTrackerDefault.getDeviationRatio ⟨slidingWindow.avgTracker⟩ hash value

omit [Field K] [LinearOrder K] in
/-- The first action. -/
def allowedAsset : Action (Analysis H K) H K := fun analysis _ hash _ =>
  (analysis, if hash = config.allowedAssetHash then [hash] else [])

omit [DecidableEq H] in
/-- The second action; without a ratio it compares `0`. -/
def deviates : Action (Analysis H K) H K := fun analysis _ hash value =>
  (analysis, if (getDeviationRatio analysis.slidingWindow hash value).2 >
    config.deviationRatioThreshold then [hash] else [])

omit [DecidableEq H] in
/-- The loop of the third action over the pairs that are left. -/
def relatedPairs (slidingWindow : SlidingWindowStorageDefault H K) (hash : H) :
    List H → Except Fault (List H)
  | [] => .ok []
  | pair :: pairs => do
    let (status, mi) ← A.computeMutualInformationOfStorage slidingWindow hash pair
      config.numberBins.toInt32
    let pushed ← relatedPairs slidingWindow hash pairs
    .ok (if status && mi > config.miThreshold then pair :: pushed else pushed)

omit [DecidableEq H] in
/-- The third action. -/
def related : Action (Analysis H K) H K := fun analysis _ hash _ =>
  if !market.hasPair hash then (analysis, [])
  else
    match relatedPairs A config analysis.slidingWindow hash (market.getPairs hash) with
    | .error fault => ({ analysis with fault := some fault }, [])
    | .ok pushed => (analysis, pushed)

omit [DecidableEq H] [Field K] [LinearOrder K] in
/-- The last action. -/
def logNeed : Action (Analysis H K) H K := fun analysis _ hash value =>
  ({ analysis with needs := analysis.needs ++ [(hash, value)] }, [])

/-- `core_strategy_` after `Init`. -/
def coreStrategy : Strategy (Analysis H K) H K where
  actionsToBuy := [allowedAsset config, deviates config, related A market config, logNeed]
  actionsToSell := [allowedAsset config, deviates config, related A market config, logNeed]

end Actions

/-- What the strategy logs, or undefined behaviour in its place. -/
inductive Signal (H K : Type)
  | needBuy (hash : H) (value : K)
  | needSell (hash : H) (value : K)
  | fault (fault : Fault)
  deriving DecidableEq, Repr

/-- The signals of an analysis; `none` is the front of an empty queue. -/
def signalsOf (need : H → K → Signal H K) : Option (Analysis H K) → List (Signal H K)
  | none => []
  | some analysis =>
    match analysis.fault with
    | some fault => [.fault fault]
    | none => analysis.needs.map fun (hash, value) => need hash value

/-- The members of the strategy that change. -/
structure StrategyState (H K : Type) where
  slidingWindow : SlidingWindowStorageDefault H K
  bidPrice : H → Option K := fun _ => none
  askPrice : H → Option K := fun _ => none

/-- The constructor, and `Init`. -/
def StrategyState.new (config : Config H K) : StrategyState H K where
  slidingWindow := { windowSize := config.windowSize.toInt32 }

inductive EngineEvent (H K : Type)
  | addData (asset : H) (value : K)
  | setBidPrice (asset : H) (value : K)
  | setAskPrice (asset : H) (value : K)
  deriving DecidableEq, Repr

section Engine

variable (A : Arithmetic K K) (market : MarketTripletManagerDefault H) (config : Config H K)

/-- `AnalyzeToBuy`. -/
def analyzeToBuy (s : StrategyState H K) (asset : H) (value : K) : Option (Analysis H K) :=
  ((coreStrategy A market config).analyzeToBuy { slidingWindow := s.slidingWindow } asset
    value).map Prod.fst

/-- `AnalyzeToSell`. -/
def analyzeToSell (s : StrategyState H K) (asset : H) (value : K) : Option (Analysis H K) :=
  ((coreStrategy A market config).analyzeToSell { slidingWindow := s.slidingWindow } asset
    value).map Prod.fst

/-- What the engine posts. -/
def StrategyState.step (s : StrategyState H K) :
    EngineEvent H K → StrategyState H K × List (Signal H K)
  | .addData asset value =>
    let buy := signalsOf .needBuy (analyzeToBuy A market config s asset value)
    let sell := signalsOf .needSell (analyzeToSell A market config s asset value)
    ({ s with slidingWindow := s.slidingWindow.addData asset value }, buy ++ sell)
  | .setBidPrice asset value =>
    ({ s with bidPrice := Function.update s.bidPrice asset (some value) }, [])
  | .setAskPrice asset value =>
    ({ s with askPrice := Function.update s.askPrice asset (some value) }, [])

/-- `StrategyEngineDefault`, whose strand runs what it posts one after the other. -/
def engine : Machine (StrategyState H K) (EngineEvent H K) (Signal H K) where
  enabled _ _ := True
  step s e := s.step A market config e

end Engine

end DeviationAndMutualInformation

end CryptobotAlgo.Aos
