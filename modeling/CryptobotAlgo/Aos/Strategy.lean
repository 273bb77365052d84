import CryptobotAlgo.Aos.SlidingWindow

/-!
# The stages of a strategy

The actions of a strategy are called one after the other, each on the hashes that the one before it
has pushed.  One queue holds the hashes of the stage and the ones that it pushes; the `for` takes as
many from the front as there were when the stage began.
-/

namespace CryptobotAlgo.Aos

variable {S H T : Type}

/-- An action that only pushes: it has its surroundings `S`, the queue, a hash and a value, and
gives the new surroundings and the hashes that it pushes. -/
abbrev Action (S H T : Type) := S → List H → H → T → S × List H

/-- A call of an action, with all its arguments. -/
structure ActionCall (S H T : Type) where
  action : Action S H T
  world : S
  queue : List H
  hash : H
  value : T

def ActionCall.pushed (call : ActionCall S H T) : List H :=
  (call.action call.world call.queue call.hash call.value).2

/-- The `for`, with the number of steps that are left: the surroundings, the queue and the calls;
`none` is the front of an empty queue. -/
def runStage (action : Action S H T) (value : T) :
    ℕ → S → List H → Option (S × List H × List (ActionCall S H T))
  | 0, world, queue => some (world, queue, [])
  | size + 1, world, queue => do
    let frontHash ← queue.head?
    let (world', pushed) := action world queue frontHash value
    -- `pop` comes after the action, and takes the hash that it was called with
    let (world', queue', calls) ← runStage action value size world' (queue ++ pushed).tail
    some (world', queue', ⟨action, world, queue, frontHash, value⟩ :: calls)

/-- The `while`, from an action on: the surroundings, and the calls of each stage. -/
def runActions (value : T) :
    List (Action S H T) → S → List H → Option (S × List (List (ActionCall S H T)))
  | _, world, [] => some (world, [])
  | [], world, _ => some (world, [])
  | action :: actions, world, queue => do
    let (world, queue, calls) ← runStage action value queue.length world queue
    let (world, stages) ← runActions value actions world queue
    some (world, calls :: stages)

/-- `Strategy`, with the actions that have been added. -/
structure Strategy (S H T : Type) where
  actionsToBuy : List (Action S H T) := []
  actionsToSell : List (Action S H T) := []

namespace Strategy

def analyzeToBuy (s : Strategy S H T) (world : S) (asset : H) (value : T) :
    Option (S × List (List (ActionCall S H T))) :=
  runActions value s.actionsToBuy world [asset]

def analyzeToSell (s : Strategy S H T) (world : S) (asset : H) (value : T) :
    Option (S × List (List (ActionCall S H T))) :=
  runActions value s.actionsToSell world [asset]

end Strategy

/-- `SlidingWindowStorageObservable`, which has copies of the loops. -/
structure SlidingWindowStorageObservable (S H T : Type) where
  storage : SlidingWindowStorageDefault H T
  actionsToBuy : List (Action S H T) := []
  actionsToSell : List (Action S H T) := []

/-- What `AddData` posts: the storage with the value, the surroundings, and the calls to buy and to
sell. -/
def SlidingWindowStorageObservable.addData [DecidableEq H] [Field T] [LinearOrder T]
    (s : SlidingWindowStorageObservable S H T) (world : S) (asset : H) (value : T) :
    Option (SlidingWindowStorageObservable S H T × S × List (List (ActionCall S H T)) ×
      List (List (ActionCall S H T))) := do
  -- the observers are called before the value is added
  let (world, buyStages) ← runActions value s.actionsToBuy world [asset]
  let (world, sellStages) ← runActions value s.actionsToSell world [asset]
  some ({ s with storage := s.storage.addData asset value }, world, buyStages, sellStages)

end CryptobotAlgo.Aos
