import CryptobotAlgo.Aos.Histogram
import CryptobotAlgo.Aos.SlidingWindow

/-!
# Mutual information

The mutual information of two assets is computed from the histograms of their values, and their
joint histogram; `log2` stands for `std::log2`.
-/

namespace CryptobotAlgo.Aos.MutualInformationCalculatorDefault

open HistogramCalculatorDefault JointHistogramCalculatorDefault

variable {K : Type} [Field K] [LinearOrder K]

/-- What the loop does with an entry of the joint histogram. -/
def addEntry (log2 : K → K) (histX histY : Histogram ℤ K) (mi : K)
    (kv : Sigma fun _ : ℤ × ℤ => K) : Except Fault K :=
  let pXY := kv.2
  -- `operator[]` gives `0` for a bin that is not there
  let pX := (histX.lookup kv.1.1).getD 0
  let pY := (histY.lookup kv.1.2).getD 0
  if 0 < pXY ∧ 0 < pX ∧ 0 < pY then do
    let quotient ← Fault.div pXY (pX * pY)
    pure (mi + pXY * log2 quotient)
  else
    pure mi

/-- The loop over the joint histogram. -/
def sumJoint (log2 : K → K) (histX histY : Histogram ℤ K) (jointHist : Histogram (ℤ × ℤ) K) :
    Except Fault K :=
  jointHist.entries.foldlM (addEntry log2 histX histY) 0

variable [FloorRing K]

/-- `ComputeMutualInformation`. -/
def computeMutualInformation (log2 : K → K) (x y : List K) (bins : Int32) : Except Fault K := do
  let histX ← computeHistogram x bins
  let histY ← computeHistogram y bins
  let jointHist ← computeJointHistogram x y bins
  sumJoint log2 histX histY jointHist

/-- `ComputeMutualInformation` with ranges. -/
def computeMutualInformationInRange (log2 : K → K) (x : List K) (minX maxX : K) (y : List K)
    (minY maxY : K) (bins : Int32) : Except Fault K := do
  let histX ← computeHistogramInRange x minX maxX bins
  let histY ← computeHistogramInRange y minY maxY bins
  let jointHist ← computeJointHistogramInRange x minX maxX y minY maxY bins
  sumJoint log2 histX histY jointHist

/-- `GetData`; the exception of `at` is a fault. -/
def dataOf {H : Type} (windowStorage : SlidingWindowStorageDefault H K) (hashAsset : H) :
    Except Fault (List K) :=
  match windowStorage.getData hashAsset with
  | none => .error .outOfRange
  | some window => .ok window

/-- `ComputeMutualInformation` over the window storage. -/
def computeMutualInformationOfStorage {H : Type} (log2 : K → K)
    (windowStorage : SlidingWindowStorageDefault H K) (hashAsset pairedAsset : H) (bins : Int32) :
    Except Fault (Bool × K) := do
  if !windowStorage.hasEnoughData hashAsset || !windowStorage.hasEnoughData pairedAsset then
    return (false, 0)
  let dataX ← dataOf windowStorage hashAsset
  let dataY ← dataOf windowStorage pairedAsset
  let (minStatusX, minHashX) := windowStorage.getMin hashAsset
  let (maxStatusX, maxHashX) := windowStorage.getMax hashAsset
  let (minStatusY, minHashY) := windowStorage.getMin pairedAsset
  let (maxStatusY, maxHashY) := windowStorage.getMax pairedAsset
  if !minStatusX || !maxStatusX || !minStatusY || !maxStatusY then
    return (false, 0)
  let mi ← computeMutualInformationInRange log2 dataX minHashX maxHashX dataY minHashY maxHashY bins
  return (true, mi)

end CryptobotAlgo.Aos.MutualInformationCalculatorDefault
