import CryptobotAlgo.Aos.MemPool
import CryptobotAlgo.Machine.Basic

/-!
# The memory pool, used by several threads

The calls of `Allocate` and `Deallocate` of any number of callers, in their atomic steps: a load of
`head_`, an access to the next pointer in a block, a `compare_exchange_strong`, or `pool_.malloc`.
The memory is sequentially consistent.

The next pointer of a block is stored where its object is, so that whoever holds the block may
overwrite it.  A holder may also pass its block on to another caller.
-/

namespace CryptobotAlgo.Common

/-- Where a caller is in a call. -/
inductive PoolCall
  /-- `Allocate`, before it loads `head_` -/
  | allocate
  /-- it has loaded `block`, which is not null -/
  | allocateLoaded (block : Ptr)
  /-- it has read the next pointer in `block` -/
  | allocateRead (block : Ptr) (next : Option Ptr)
  /-- it is going to call `pool_.malloc` -/
  | allocateMalloc
  /-- `Deallocate`, before it loads `head_` -/
  | deallocate (obj : Ptr)
  /-- at the start of the `do` -/
  | deallocateLoaded (obj : Ptr) (head : Option Ptr)
  /-- it has stored `head` in the block -/
  | deallocateStored (obj : Ptr) (head : Option Ptr)
  deriving DecidableEq, Repr

/-- The block that the call gives back. -/
def PoolCall.obj : PoolCall → Option Ptr
  | .deallocate obj | .deallocateLoaded obj _ | .deallocateStored obj _ => some obj
  | .allocate | .allocateLoaded _ | .allocateRead _ _ | .allocateMalloc => none

/-- A pool and its callers. -/
structure AtomicPool where
  poolSize : ℕ
  /-- `head_` -/
  head : Option Ptr := none
  /-- the first word of each block; of a free block, this is the next pointer -/
  next : Ptr → Option Ptr := fun _ => none
  /-- `pool_.malloc` has returned the blocks `0, …, mallocs - 1` -/
  mallocs : ℕ := 0
  calls : ℕ → Option PoolCall := fun _ => none
  /-- the callers that hold a block, one for each `Allocate` that has returned it and whose
  `Deallocate` has not pushed it -/
  holders : Ptr → List ℕ := fun _ => []

inductive PoolEvent
  /-- the caller calls `Allocate()` -/
  | allocate (caller : ℕ)
  /-- the caller calls `Deallocate(obj)` -/
  | deallocate (caller : ℕ) (obj : Ptr)
  /-- the caller takes the next step of its call -/
  | step (caller : ℕ)
  /-- the caller writes to a block that it holds -/
  | write (caller : ℕ) (block : Ptr) (word : Option Ptr)
  /-- the caller passes a block on -/
  | pass (caller : ℕ) (block : Ptr) (receiver : ℕ)
  deriving DecidableEq, Repr

namespace AtomicPool

def setCall (p : AtomicPool) (caller : ℕ) (call : Option PoolCall) : AtomicPool :=
  { p with calls := Function.update p.calls caller call }

/-- `Allocate` returns the block. -/
def returnBlock (p : AtomicPool) (caller : ℕ) (block : Ptr) : AtomicPool :=
  { p with holders := Function.update p.holders block (caller :: p.holders block) }.setCall caller
    none

/-- The next step of a call. -/
def stepFrom (p : AtomicPool) (caller : ℕ) : PoolCall → AtomicPool
  | .allocate =>
    if p.poolSize = 0 then p.setCall caller none
    else
      match p.head with
      | none => p.setCall caller (some .allocateMalloc)
      | some block => p.setCall caller (some (.allocateLoaded block))
  | .allocateLoaded block =>
    p.setCall caller (some (.allocateRead block (p.next block)))
  | .allocateRead block next =>
    if p.head = some block then { p with head := next }.returnBlock caller block
    else p.setCall caller (some .allocateMalloc)
  | .allocateMalloc => { p with mallocs := p.mallocs + 1 }.returnBlock caller p.mallocs
  | .deallocate obj => p.setCall caller (some (.deallocateLoaded obj p.head))
  | .deallocateLoaded obj head =>
    { p with next := Function.update p.next obj head }.setCall caller
      (some (.deallocateStored obj head))
  | .deallocateStored obj head =>
    if p.head = head then
      { p with
        head := some obj
        holders := Function.update p.holders obj ((p.holders obj).erase caller) }.setCall caller
          none
    else p.setCall caller (some (.deallocateLoaded obj p.head))

def stepCall (p : AtomicPool) (caller : ℕ) : AtomicPool :=
  match p.calls caller with
  | none => p
  | some call => p.stepFrom caller call

/-- The block goes from its holder to another caller. -/
def passBlock (p : AtomicPool) (caller : ℕ) (block : Ptr) (receiver : ℕ) : AtomicPool :=
  let holders := receiver :: (p.holders block).erase caller
  { p with holders := Function.update p.holders block holders }

def step (p : AtomicPool) : PoolEvent → AtomicPool
  | .allocate caller => p.setCall caller (some .allocate)
  | .deallocate caller obj => p.setCall caller (some (.deallocate obj))
  | .step caller => p.stepCall caller
  | .write _ block word => { p with next := Function.update p.next block word }
  | .pass caller block receiver => p.passBlock caller block receiver

/-- The block that the caller is giving back. -/
def deallocating (p : AtomicPool) (caller : ℕ) : Option Ptr := (p.calls caller).bind PoolCall.obj

/-- The caller holds the block, and has not begun to give it back. -/
def Uses (p : AtomicPool) (caller : ℕ) (block : Ptr) : Prop :=
  caller ∈ p.holders block ∧ p.deallocating caller ≠ some block

instance (p : AtomicPool) (caller : ℕ) (block : Ptr) : Decidable (p.Uses caller block) :=
  inferInstanceAs (Decidable (_ ∧ _))

/-- A caller makes one call at a time, and uses only what it holds. -/
def Enabled (p : AtomicPool) : PoolEvent → Prop
  | .allocate caller => p.calls caller = none
  | .deallocate caller obj => p.calls caller = none ∧ p.Uses caller obj
  | .step caller => p.calls caller ≠ none
  | .write caller block _ => p.Uses caller block
  | .pass caller block _ => p.Uses caller block

instance (p : AtomicPool) (e : PoolEvent) : Decidable (p.Enabled e) :=
  match e with
  | .allocate caller => inferInstanceAs (Decidable (p.calls caller = none))
  | .deallocate caller obj =>
    inferInstanceAs (Decidable (p.calls caller = none ∧ p.Uses caller obj))
  | .step caller => inferInstanceAs (Decidable (p.calls caller ≠ none))
  | .write caller block _ => inferInstanceAs (Decidable (p.Uses caller block))
  | .pass caller block _ => inferInstanceAs (Decidable (p.Uses caller block))

end AtomicPool

/-- A pool with any number of callers. -/
def poolMachine : Machine AtomicPool PoolEvent Empty where
  enabled := AtomicPool.Enabled
  step := fun p e => (p.step e, [])

instance (p : AtomicPool) (e : PoolEvent) : Decidable (poolMachine.enabled p e) :=
  inferInstanceAs (Decidable (p.Enabled e))

end CryptobotAlgo.Common
