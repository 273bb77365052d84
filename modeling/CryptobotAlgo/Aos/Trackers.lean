import Mathlib.Algebra.Order.Field.Basic
import Mathlib.Data.List.AList

/-!
# Trackers of a stream of values

For each asset, a tracker keeps a statistic of the values that have been added and not removed:
their average, least or greatest.  Values are of one type `T`, an ordered field, so the arithmetic
is exact; `size_t` is `UInt64`.

A `std::map` is modelled by its entries: `begin()` is the entry with the least key, `rbegin()` the
one with the greatest.  The least and the greatest value are tracked by the same text up to the
comparison and the end of the map, so this is written once, for an `ExtremumTracker`.
-/

namespace CryptobotAlgo.Aos

variable {H T : Type} [DecidableEq H] [Field T] [LinearOrder T]

/-- `AvgTrackerDefault`. -/
structure AvgTrackerDefault (H T : Type) where
  sums : H → Option T := fun _ => none
  counts : H → Option UInt64 := fun _ => none

namespace AvgTrackerDefault

def onAdd (t : AvgTrackerDefault H T) (hashAsset : H) (value : T) : AvgTrackerDefault H T where
  sums := Function.update t.sums hashAsset (some ((t.sums hashAsset).getD 0 + value))
  counts := Function.update t.counts hashAsset (some ((t.counts hashAsset).getD 0 + 1))

/-- A value that was never added is subtracted all the same, and the count may wrap. -/
def onRemove (t : AvgTrackerDefault H T) (hashAsset : H) (value : T) : AvgTrackerDefault H T where
  sums := Function.update t.sums hashAsset (some ((t.sums hashAsset).getD 0 - value))
  counts := Function.update t.counts hashAsset (some ((t.counts hashAsset).getD 0 - 1))

/-- `sums_` has an entry wherever `counts_` has one. -/
def getAvg (t : AvgTrackerDefault H T) (hashAsset : H) : Bool × T :=
  match t.counts hashAsset with
  | none => (false, 0)
  | some count =>
    if 0 < count then
      (true, (t.sums hashAsset).getD 0 / count.toNat)
    else
      (false, 0)

end AvgTrackerDefault

/-- `std::map<T, size_t>`. -/
abbrev FrequencyMap (T : Type) := AList fun _ : T => UInt64

/-- `MinTrackerDefault` and `MaxTrackerDefault`: `element` is `min_element_` or `max_element_`. -/
structure ExtremumTracker (H T : Type) where
  frequency : H → Option (FrequencyMap T) := fun _ => none
  element : H → Option T := fun _ => none

namespace ExtremumTracker

/-- `OnAdd`; `better value element` says that `value` replaces `element`. -/
def onAdd (better : T → T → Prop) [DecidableRel better] (t : ExtremumTracker H T) (hashAsset : H)
    (value : T) : ExtremumTracker H T :=
  -- without an extremum the asset starts afresh
  let t : ExtremumTracker H T :=
    match t.element hashAsset with
    | none => {
      frequency := Function.update t.frequency hashAsset (some ∅)
      element := Function.update t.element hashAsset (some value) }
    | some _ => t
  let assetMap := (t.frequency hashAsset).getD ∅
  let assetMap := assetMap.insert value ((assetMap.lookup value).getD 0 + 1)
  let t := { t with frequency := Function.update t.frequency hashAsset (some assetMap) }
  if better value ((t.element hashAsset).getD 0) then
    { t with element := Function.update t.element hashAsset (some value) }
  else
    t

/-- `OnRemove`: nothing happens if the asset or the value is absent; `first` is the key at the end
of the map that holds the extremum. -/
def onRemove (first : FrequencyMap T → Option T) (t : ExtremumTracker H T) (hashAsset : H)
    (value : T) : ExtremumTracker H T :=
  match t.frequency hashAsset with
  | none => t
  | some assetMap =>
    match assetMap.lookup value with
    | none => t
    | some count =>
      let assetMap :=
        if count - 1 = 0 then assetMap.erase value else assetMap.insert value (count - 1)
      let t := { t with frequency := Function.update t.frequency hashAsset (some assetMap) }
      if (t.element hashAsset).getD 0 = value then
        -- an empty map has no first key, and the extremum is erased
        { t with element := Function.update t.element hashAsset (first assetMap) }
      else
        t

/-- `GetMin` and `GetMax`. -/
def get (t : ExtremumTracker H T) (hashAsset : H) : Bool × T :=
  match t.element hashAsset with
  | none => (false, 0)
  | some element => (true, element)

end ExtremumTracker

/-- `MinTrackerDefault`. -/
abbrev MinTrackerDefault (H T : Type) := ExtremumTracker H T

namespace MinTrackerDefault

def onAdd (t : MinTrackerDefault H T) (hashAsset : H) (value : T) : MinTrackerDefault H T :=
  ExtremumTracker.onAdd (fun value minElement => minElement > value) t hashAsset value

def onRemove (t : MinTrackerDefault H T) (hashAsset : H) (value : T) : MinTrackerDefault H T :=
  ExtremumTracker.onRemove (fun assetMap => assetMap.keys.min?) t hashAsset value

def getMin (t : MinTrackerDefault H T) (hashAsset : H) : Bool × T := ExtremumTracker.get t hashAsset

end MinTrackerDefault

/-- `MaxTrackerDefault`. -/
abbrev MaxTrackerDefault (H T : Type) := ExtremumTracker H T

namespace MaxTrackerDefault

def onAdd (t : MaxTrackerDefault H T) (hashAsset : H) (value : T) : MaxTrackerDefault H T :=
  ExtremumTracker.onAdd (fun value maxElement => maxElement < value) t hashAsset value

def onRemove (t : MaxTrackerDefault H T) (hashAsset : H) (value : T) : MaxTrackerDefault H T :=
  ExtremumTracker.onRemove (fun assetMap => assetMap.keys.max?) t hashAsset value

def getMax (t : MaxTrackerDefault H T) (hashAsset : H) : Bool × T := ExtremumTracker.get t hashAsset

end MaxTrackerDefault

end CryptobotAlgo.Aos
