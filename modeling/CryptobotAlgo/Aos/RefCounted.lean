import CryptobotAlgo.Aos.MemPoolAtomic

/-!
# Reference counts

The objects of a pool that several threads use, and the `boost::intrusive_ptr`s to them.  A builder
allocates an object, sets its pool, and gives it to a first `intrusive_ptr`; that one is copied, and
the copies are destroyed, by any number of threads.

`fetch_add` and `fetch_sub` are one step each.  `Allocate` and `Deallocate` take the atomic steps of
`AtomicPool`, between which the other threads may do anything.  An object begins to live when
`Allocate` returns, and ends to live when `Deallocate` is called.  A pool of size `0` gives no
object.
-/

namespace CryptobotAlgo.Common

/-- `RefCounted`. -/
structure RefCounted where
  /-- `ref_count_` -/
  refCount : Int32 := 0
  /-- `memory_pool_` is not null -/
  memoryPool : Bool := false
  deriving DecidableEq, Repr

/-- A pool, the objects in its blocks, and the pointers to them. -/
structure RefPool where
  pool : AtomicPool
  objects : Ptr → Option RefCounted := fun _ => none
  /-- the number of builders that `Allocate` has returned the block to, and that have not given it
  to an `intrusive_ptr` -/
  builders : Ptr → ℕ := fun _ => 0
  /-- the number of `intrusive_ptr`s to the block -/
  handles : Ptr → ℕ := fun _ => 0
  /-- the number of calls of `intrusive_ptr_release` that have passed the comparison with `1`, and
  have not called `Deallocate` -/
  releasing : Ptr → ℕ := fun _ => 0

inductive RefEvent
  /-- the thread calls `Allocate` -/
  | allocate (thread : ℕ)
  /-- the thread takes the next step of its call of `Allocate` or `Deallocate` -/
  | step (thread : ℕ)
  /-- the first word of an object is written -/
  | write (block : Ptr) (word : Option Ptr)
  /-- `SetMemoryPool` of a pool -/
  | setMemoryPool (block : Ptr)
  /-- the first `intrusive_ptr` is made -/
  | adopt (block : Ptr)
  /-- an `intrusive_ptr` is copied -/
  | copy (block : Ptr)
  /-- an `intrusive_ptr` is destroyed, up to the comparison with `1` -/
  | release (block : Ptr)
  /-- the thread goes on with a release that has passed the comparison, up to the call of
  `Deallocate` -/
  | deallocate (thread : ℕ) (block : Ptr)
  deriving DecidableEq, Repr

inductive RefAction
  /-- `Allocate` returns the block -/
  | allocated (block : Ptr)
  /-- `Deallocate` is called for the block -/
  | deallocated (block : Ptr)
  /-- `"no found memory pool to dealocate"` is logged -/
  | noPool (block : Ptr)
  /-- a block is used in which no object lives -/
  | undefined
  deriving DecidableEq, Repr

namespace AtomicPool

/-- The block that the next step of the caller's `Allocate` returns. -/
def returned (p : AtomicPool) (caller : ℕ) : Option Ptr :=
  match p.calls caller with
  | some (.allocateRead block _) => if p.head = some block then some block else none
  | some .allocateMalloc => some p.mallocs
  | _ => none

/-- `Deallocate` is called by any caller, who has the block from its holder. -/
def callDeallocate (p : AtomicPool) (caller : ℕ) (obj : Ptr) : AtomicPool :=
  let holder := (p.holders obj).headD caller
  (p.step (.pass holder obj caller)).step (.deallocate caller obj)

end AtomicPool

namespace RefPool

/-- The object in the block is changed. -/
def modify (s : RefPool) (block : Ptr) (change : RefCounted → RefCounted) : Option RefPool := do
  let obj ← s.objects block
  return { s with objects := Function.update s.objects block (some (change obj)) }

/-- The next step of a call of the pool. -/
def stepPool (s : RefPool) (thread : ℕ) : RefPool × List RefAction :=
  let pool := s.pool.step (.step thread)
  match s.pool.returned thread with
  | none => ({ s with pool }, [])
  | some block =>
    -- the object is constructed in the block, whatever is there
    ({ s with
      pool
      objects := Function.update s.objects block (some {})
      builders := Function.update s.builders block (s.builders block + 1) }, [.allocated block])

/-- `intrusive_ptr_add_ref`. -/
def addRef (s : RefPool) (block : Ptr) : Option RefPool := do
  let s ← s.modify block fun obj => { obj with refCount := obj.refCount + 1 }
  return { s with handles := Function.update s.handles block (s.handles block + 1) }

/-- `intrusive_ptr_release`, up to the comparison. -/
def fetchSub (s : RefPool) (block : Ptr) : Option RefPool := do
  let obj ← s.objects block
  let s ← s.modify block fun obj => { obj with refCount := obj.refCount - 1 }
  let s := { s with handles := Function.update s.handles block (s.handles block - 1) }
  if obj.refCount = 1 then
    return { s with releasing := Function.update s.releasing block (s.releasing block + 1) }
  else return s

/-- `intrusive_ptr_release`, after the comparison. -/
def finishRelease (s : RefPool) (thread : ℕ) (block : Ptr) : Option (RefPool × List RefAction) := do
  let obj ← s.objects block
  let s := { s with releasing := Function.update s.releasing block (s.releasing block - 1) }
  if obj.memoryPool then
    let s := { s with
      pool := s.pool.callDeallocate thread block
      objects := Function.update s.objects block none }
    return (s, [.deallocated block])
  else return (s, [.noPool block])

/-- A step; `none` where a block is used in which no object lives. -/
def step? (s : RefPool) : RefEvent → Option (RefPool × List RefAction)
  | .allocate thread => some ({ s with pool := s.pool.step (.allocate thread) }, [])
  | .step thread => some (s.stepPool thread)
  | .write block word => do
    let _ ← s.objects block
    return ({ s with
      pool := { s.pool with next := Function.update s.pool.next block word } }, [])
  | .setMemoryPool block => do
    let s ← s.modify block fun obj => { obj with memoryPool := true }
    return (s, [])
  | .adopt block => do
    let s ← s.addRef block
    return ({ s with builders := Function.update s.builders block (s.builders block - 1) }, [])
  | .copy block => do
    let s ← s.addRef block
    return (s, [])
  | .release block => do
    let s ← s.fetchSub block
    return (s, [])
  | .deallocate thread block => s.finishRelease thread block

/-- A thread makes one call of the pool at a time; a builder uses a pointer that it has not given
away; what is copied or destroyed is there. -/
def Enabled (s : RefPool) : RefEvent → Prop
  | .allocate thread => s.pool.calls thread = none
  | .step thread => s.pool.calls thread ≠ none
  | .write block _ => 0 < s.builders block ∨ 0 < s.handles block
  | .setMemoryPool block => 0 < s.builders block
  | .adopt block => 0 < s.builders block
  | .copy block => 0 < s.handles block
  | .release block => 0 < s.handles block
  | .deallocate thread block => s.pool.calls thread = none ∧ 0 < s.releasing block

instance (s : RefPool) (e : RefEvent) : Decidable (s.Enabled e) :=
  match e with
  | .allocate thread => inferInstanceAs (Decidable (s.pool.calls thread = none))
  | .step thread => inferInstanceAs (Decidable (s.pool.calls thread ≠ none))
  | .write block _ => inferInstanceAs (Decidable (0 < s.builders block ∨ 0 < s.handles block))
  | .setMemoryPool block => inferInstanceAs (Decidable (0 < s.builders block))
  | .adopt block => inferInstanceAs (Decidable (0 < s.builders block))
  | .copy block => inferInstanceAs (Decidable (0 < s.handles block))
  | .release block => inferInstanceAs (Decidable (0 < s.handles block))
  | .deallocate thread block =>
    inferInstanceAs (Decidable (s.pool.calls thread = none ∧ 0 < s.releasing block))

end RefPool

/-- A pool with the pointers of any number of threads. -/
def refMachine : Machine RefPool RefEvent RefAction where
  enabled := RefPool.Enabled
  step s e := (s.step? e).getD (s, [.undefined])

instance (s : RefPool) (e : RefEvent) : Decidable (refMachine.enabled s e) :=
  inferInstanceAs (Decidable (s.Enabled e))

end CryptobotAlgo.Common
