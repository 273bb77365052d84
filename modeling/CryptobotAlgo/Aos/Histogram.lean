import CryptobotAlgo.CountingMap
import Mathlib.Algebra.Order.Field.Basic
import Mathlib.Algebra.Order.Floor.Defs

/-!
# Histograms

A histogram gives the part of the values that fall into each bin, a joint histogram that of the
pairs that fall into each pair of bins.  Values are of one type `K`, an ordered field with a floor,
so that the arithmetic is exact.

Each function comes with the range of the values as an argument, or takes it from the values.
-/

namespace CryptobotAlgo.Aos

/-- What is undefined in a computation. -/
inductive Fault
  /-- The least or greatest element of an empty deque. -/
  | emptyData
  /-- An element behind the end of a deque. -/
  | outOfRange
  /-- A division by `0`. -/
  | divisionByZero
  /-- A value that no `int` can represent. -/
  | conversion
  deriving DecidableEq, Repr

variable {K : Type} [Field K] [LinearOrder K] [FloorRing K]

/-- A division that is executed. -/
def Fault.div {K : Type} [Field K] [DecidableEq K] (a b : K) : Except Fault K :=
  if b = 0 then .error .divisionByZero else .ok (a / b)

/-- The conversion to `int`, which drops the fraction. -/
def Fault.toInt (value : K) : Except Fault ℤ :=
  let truncated := if 0 ≤ value then ⌊value⌋ else ⌈value⌉
  -- the behaviour is undefined where the truncated value does not fit
  if -2 ^ 31 ≤ truncated ∧ truncated < 2 ^ 31 then .ok truncated else .error .conversion

/-- `std::unordered_map<Key, T>`. -/
abbrev Histogram (Key K : Type) := AList fun _ : Key => K

/-- The bin of a value. -/
def binIndex (minVal binWidth value : K) : Except Fault ℤ := do
  let quotient ← Fault.div (value - minVal) binWidth
  Fault.toInt quotient

/-- What the loop over the values does with a value. -/
def countValue (minVal binWidth : K) (histogram : Histogram ℤ K) (value : K) :
    Except Fault (Histogram ℤ K) := do
  let index ← binIndex minVal binWidth value
  pure (increment histogram index)

/-- What the loop over the entries does with the entry of a key. -/
def divideEntry {Key K : Type} [DecidableEq Key] [Field K] [DecidableEq K] (size : ℕ)
    (histogram : Histogram Key K) (key : Key) : Except Fault (Histogram Key K) := do
  let quotient ← Fault.div ((histogram.lookup key).getD 0) (size : K)
  pure (histogram.insert key quotient)

/-- The loop that divides the entries by the number of elements. -/
def normalize {Key K : Type} [DecidableEq Key] [Field K] [DecidableEq K] (size : ℕ)
    (histogram : Histogram Key K) : Except Fault (Histogram Key K) :=
  histogram.keys.foldlM (divideEntry size) histogram

/-- `*std::min_element`. -/
def minElement {K : Type} [LinearOrder K] (data : List K) : Except Fault K :=
  match data.min? with
  | none => .error .emptyData
  | some value => .ok value

/-- `*std::max_element`. -/
def maxElement {K : Type} [LinearOrder K] (data : List K) : Except Fault K :=
  match data.max? with
  | none => .error .emptyData
  | some value => .ok value

namespace HistogramCalculatorDefault

/-- `ComputeHistogram` with a range. -/
def computeHistogramInRange (data : List K) (minVal maxVal : K) (bins : Int32) :
    Except Fault (Histogram ℤ K) := do
  let binWidth ← Fault.div (maxVal - minVal) (bins.toInt : K)
  let histogram ← data.foldlM (countValue minVal binWidth) ∅
  normalize data.length histogram

/-- `ComputeHistogram`, which goes on with the range as the other one does. -/
def computeHistogram (data : List K) (bins : Int32) : Except Fault (Histogram ℤ K) := do
  let minVal ← minElement data
  let maxVal ← maxElement data
  -- `bin_index` is a `T` here, and becomes an `int` as the key
  computeHistogramInRange data minVal maxVal bins

end HistogramCalculatorDefault

namespace JointHistogramCalculatorDefault

/-- The `for` over the elements of `x` that are left, and those of `y` at the same places. -/
def countPairs (minX binWidthX minY binWidthY : K) :
    List K → List K → Histogram (ℤ × ℤ) K → Except Fault (Histogram (ℤ × ℤ) K)
  | [], _, histogram => pure histogram
  | x :: xs, ys, histogram => do
    let binX ← binIndex minX binWidthX x
    match ys with
    -- the `for` goes on to the size of `x`
    | [] => .error .outOfRange
    | y :: ys => do
      let binY ← binIndex minY binWidthY y
      countPairs minX binWidthX minY binWidthY xs ys (increment histogram (binX, binY))

/-- `ComputeJointHistogram` with ranges. -/
def computeJointHistogramInRange (x : List K) (minX maxX : K) (y : List K) (minY maxY : K)
    (bins : Int32) : Except Fault (Histogram (ℤ × ℤ) K) := do
  let binWidthX ← Fault.div (maxX - minX) (bins.toInt : K)
  let binWidthY ← Fault.div (maxY - minY) (bins.toInt : K)
  let histogram ← countPairs minX binWidthX minY binWidthY x y ∅
  normalize x.length histogram

/-- `ComputeJointHistogram`, which goes on with the ranges as the other one does. -/
def computeJointHistogram (x y : List K) (bins : Int32) : Except Fault (Histogram (ℤ × ℤ) K) := do
  let minX ← minElement x
  let maxX ← maxElement x
  let minY ← minElement y
  let maxY ← maxElement y
  computeJointHistogramInRange x minX maxX y minY maxY bins

end JointHistogramCalculatorDefault

end CryptobotAlgo.Aos
