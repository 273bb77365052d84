import CryptobotAlgo.Aos.MutualInformation
import Mathlib.Algebra.Field.Rat
import Mathlib.Data.Rat.Floor

/-!
# Mutual information in the arithmetic of a type

The calculators are templates over the type of the values, and a template that divides exactly in a
field underflows with `double` and drops fractions with `int`.  Here they are written over an
`Arithmetic`, which leaves the operations open: `T` is the type the results of operations have, and
`K` the values of the windows, of which nothing but the order is used.

The arithmetic of a field is one of them (`exact`), for which the functions are those over the field
(`exact_computeMutualInformationOfStorage`); that of `int` is another (`integer`).
-/

namespace CryptobotAlgo.Aos

/-- The operations on values that are not those of the types that count and compare. -/
structure Arithmetic (K T : Type) where
  sub : K → K → T
  div : T → T → T
  /-- an `int`, as the divisor of a `T` -/
  ofInt : ℤ → T
  /-- a `size_t`, as the divisor of a `T` -/
  ofSize : ℕ → T
  /-- the conversion to `int` -/
  toInt : T → Except Fault ℤ
  /-- `mi + pXY * std::log2(quotient)` -/
  addLog2 : T → T → T → T

namespace Arithmetic

variable {K T : Type} [Zero T] [DecidableEq T] (A : Arithmetic K T)

/-- A division that is executed. -/
def divide (a b : T) : Except Fault T :=
  if b = 0 then .error .divisionByZero else .ok (A.div a b)

/-- The bin of a value. -/
def binIndex (minVal : K) (binWidth : T) (value : K) : Except Fault ℤ := do
  let quotient ← A.divide (A.sub value minVal) binWidth
  A.toInt quotient

/-- What the loop over the entries does with the entry of a key. -/
def divideEntry {Key : Type} [DecidableEq Key] (size : ℕ) (histogram : Histogram Key T)
    (key : Key) : Except Fault (Histogram Key T) := do
  let quotient ← A.divide ((histogram.lookup key).getD 0) (A.ofSize size)
  pure (histogram.insert key quotient)

/-- The loop that divides the entries by the number of elements. -/
def normalize {Key : Type} [DecidableEq Key] (size : ℕ) (histogram : Histogram Key T) :
    Except Fault (Histogram Key T) :=
  histogram.keys.foldlM (A.divideEntry size) histogram

section Counting

variable [One T] [Add T]

/-- What the loop over the values does with a value. -/
def countValue (minVal : K) (binWidth : T) (histogram : Histogram ℤ T) (value : K) :
    Except Fault (Histogram ℤ T) := do
  let index ← A.binIndex minVal binWidth value
  pure (increment histogram index)

/-- `ComputeHistogram` with a range. -/
def computeHistogramInRange (data : List K) (minVal maxVal : K) (bins : Int32) :
    Except Fault (Histogram ℤ T) := do
  let binWidth ← A.divide (A.sub maxVal minVal) (A.ofInt bins.toInt)
  let histogram ← data.foldlM (A.countValue minVal binWidth) ∅
  A.normalize data.length histogram

/-- The `for` over the elements of `x` that are left, and those of `y` at the same places. -/
def countPairs (minX : K) (binWidthX : T) (minY : K) (binWidthY : T) :
    List K → List K → Histogram (ℤ × ℤ) T → Except Fault (Histogram (ℤ × ℤ) T)
  | [], _, histogram => pure histogram
  | x :: xs, ys, histogram => do
    let binX ← A.binIndex minX binWidthX x
    match ys with
    | [] => .error .outOfRange
    | y :: ys => do
      let binY ← A.binIndex minY binWidthY y
      countPairs minX binWidthX minY binWidthY xs ys (increment histogram (binX, binY))

/-- `ComputeJointHistogram` with ranges. -/
def computeJointHistogramInRange (x : List K) (minX maxX : K) (y : List K) (minY maxY : K)
    (bins : Int32) : Except Fault (Histogram (ℤ × ℤ) T) := do
  let binWidthX ← A.divide (A.sub maxX minX) (A.ofInt bins.toInt)
  let binWidthY ← A.divide (A.sub maxY minY) (A.ofInt bins.toInt)
  let histogram ← A.countPairs minX binWidthX minY binWidthY x y ∅
  A.normalize x.length histogram

end Counting

section Sum

variable [Mul T] [LT T] [DecidableLT T]

/-- What the loop does with an entry of the joint histogram. -/
def addEntry (histX histY : Histogram ℤ T) (mi : T) (kv : Sigma fun _ : ℤ × ℤ => T) :
    Except Fault T :=
  let pXY := kv.2
  let pX := (histX.lookup kv.1.1).getD 0
  let pY := (histY.lookup kv.1.2).getD 0
  if 0 < pXY ∧ 0 < pX ∧ 0 < pY then do
    let quotient ← A.divide pXY (pX * pY)
    pure (A.addLog2 mi pXY quotient)
  else
    pure mi

/-- The loop over the joint histogram. -/
def sumJoint (histX histY : Histogram ℤ T) (jointHist : Histogram (ℤ × ℤ) T) : Except Fault T :=
  jointHist.entries.foldlM (A.addEntry histX histY) 0

variable [One T] [Add T]

/-- `ComputeMutualInformation` with ranges. -/
def computeMutualInformationInRange (x : List K) (minX maxX : K) (y : List K) (minY maxY : K)
    (bins : Int32) : Except Fault T := do
  let histX ← A.computeHistogramInRange x minX maxX bins
  let histY ← A.computeHistogramInRange y minY maxY bins
  let jointHist ← A.computeJointHistogramInRange x minX maxX y minY maxY bins
  A.sumJoint histX histY jointHist

/-- `ComputeMutualInformation` over the window storage. -/
def computeMutualInformationOfStorage {H : Type} [Field K] [LinearOrder K]
    (windowStorage : SlidingWindowStorageDefault H K) (hashAsset pairedAsset : H) (bins : Int32) :
    Except Fault (Bool × T) := do
  if !windowStorage.hasEnoughData hashAsset || !windowStorage.hasEnoughData pairedAsset then
    return (false, 0)
  let dataX ← MutualInformationCalculatorDefault.dataOf windowStorage hashAsset
  let dataY ← MutualInformationCalculatorDefault.dataOf windowStorage pairedAsset
  let (minStatusX, minHashX) := windowStorage.getMin hashAsset
  let (maxStatusX, maxHashX) := windowStorage.getMax hashAsset
  let (minStatusY, minHashY) := windowStorage.getMin pairedAsset
  let (maxStatusY, maxHashY) := windowStorage.getMax pairedAsset
  if !minStatusX || !maxStatusX || !minStatusY || !maxStatusY then
    return (false, 0)
  let mi ← A.computeMutualInformationInRange dataX minHashX maxHashX dataY minHashY maxHashY bins
  return (true, mi)

end Sum

/-! ### Two arithmetics -/

/-- The arithmetic of a field. -/
def exact {K : Type} [Field K] [LinearOrder K] [FloorRing K] (log2 : K → K) : Arithmetic K K where
  sub a b := a - b
  div a b := a / b
  ofInt n := n
  ofSize n := n
  toInt := Fault.toInt
  addLog2 mi pXY quotient := mi + pXY * log2 quotient

/-- What is left of a value without its fraction. -/
def truncate {K : Type} [Field K] [LinearOrder K] [FloorRing K] (value : K) : ℤ :=
  if 0 ≤ value then ⌊value⌋ else ⌈value⌉

/-- The arithmetic of `int`, as long as nothing overflows; the windows hold integers. -/
def integer (log2 : ℤ → ℚ) : Arithmetic ℚ ℤ where
  sub a b := ⌊a⌋ - ⌊b⌋
  div := Int.tdiv
  ofInt n := n
  ofSize n := n
  toInt value := .ok value
  -- the sum is a `double`, which the assignment converts
  addLog2 mi pXY quotient := truncate (mi + pXY * log2 quotient)

end Arithmetic

end CryptobotAlgo.Aos
