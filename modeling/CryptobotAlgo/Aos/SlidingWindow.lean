import CryptobotAlgo.Aos.Trackers

/-!
# The sliding window storage

For each asset the storage keeps the latest values, at most `window_size_` of them, and tells the
trackers of every value that comes in or drops out.
-/

namespace CryptobotAlgo.Aos

variable {H T : Type} [DecidableEq H] [Field T] [LinearOrder T]

/-- `SlidingWindowStorageDefault`, with the trackers that `AddData` updates; a deque is a list. -/
structure SlidingWindowStorageDefault (H T : Type) where
  windowSize : Int32
  data : H → Option (List T) := fun _ => none
  avgTracker : AvgTrackerDefault H T := {}
  minTracker : MinTrackerDefault H T := {}
  maxTracker : MaxTrackerDefault H T := {}

namespace SlidingWindowStorageDefault

/-- `window_size_` as it is compared with a `size_t`. -/
def sizeLimit (s : SlidingWindowStorageDefault H T) : UInt64 := s.windowSize.toInt64.toUInt64

def updateTrackersOnAdd (s : SlidingWindowStorageDefault H T) (asset : H) (value : T) :
    SlidingWindowStorageDefault H T :=
  { s with
    avgTracker := s.avgTracker.onAdd asset value
    minTracker := MinTrackerDefault.onAdd s.minTracker asset value
    maxTracker := MaxTrackerDefault.onAdd s.maxTracker asset value }

def updateTrackersOnRemove (s : SlidingWindowStorageDefault H T) (asset : H) (value : T) :
    SlidingWindowStorageDefault H T :=
  { s with
    avgTracker := s.avgTracker.onRemove asset value
    minTracker := MinTrackerDefault.onRemove s.minTracker asset value
    maxTracker := MaxTrackerDefault.onRemove s.maxTracker asset value }

/-- `AddData`. -/
def addData (s : SlidingWindowStorageDefault H T) (asset : H) (value : T) :
    SlidingWindowStorageDefault H T :=
  let window := (s.data asset).getD [] ++ [value]
  let s := s.updateTrackersOnAdd asset value
  match window with
  | [] => s
  | frontValue :: rest =>
    if s.sizeLimit.toNat < window.length then
      -- `window.pop_front()`
      { s with data := Function.update s.data asset (some rest) }.updateTrackersOnRemove asset
        frontValue
    else
      { s with data := Function.update s.data asset (some window) }

/-- `GetData`; `none` is the exception of `at`. -/
def getData (s : SlidingWindowStorageDefault H T) (hashAsset : H) : Option (List T) :=
  s.data hashAsset

def getAvg (s : SlidingWindowStorageDefault H T) (hashAsset : H) : Bool × T :=
  s.avgTracker.getAvg hashAsset

def getMin (s : SlidingWindowStorageDefault H T) (hashAsset : H) : Bool × T :=
  MinTrackerDefault.getMin s.minTracker hashAsset

def getMax (s : SlidingWindowStorageDefault H T) (hashAsset : H) : Bool × T :=
  MaxTrackerDefault.getMax s.maxTracker hashAsset

/-- `HasEnoughData`. -/
def hasEnoughData (s : SlidingWindowStorageDefault H T) (hashAsset : H) : Bool :=
  match s.data hashAsset with
  | none => false
  | some window => s.sizeLimit.toNat ≤ window.length

end SlidingWindowStorageDefault

end CryptobotAlgo.Aos
