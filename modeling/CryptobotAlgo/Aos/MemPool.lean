import Mathlib.Data.Nat.Notation
import Mathlib.Logic.Function.Basic

/-!
# Memory pools

`MemoryPoolThreadSafety` hands out blocks from `boost::pool` and keeps returned blocks in a free
list of its own.  Here it is used by one thread.  A block is named by the number of the `malloc`
call that produced it; `none` stands for a null pointer or for the use of a block in which no
object lives.
-/

namespace CryptobotAlgo.Common

/-- A block of a pool. -/
abbrev Ptr := ℕ

/-- `MemoryPoolThreadSafety<T>`. -/
structure MemoryPoolThreadSafety (T : Type*) where
  poolSize : ℕ
  /-- The free list, from `head_`. -/
  freeList : List Ptr := []
  /-- `pool_.malloc` has produced the blocks `0, …, mallocs - 1`. -/
  mallocs : ℕ := 0
  /-- The object that lives in a block. -/
  objects : Ptr → Option T := fun _ => none

namespace MemoryPoolThreadSafety

variable {T : Type*}

/-- `Allocate`: the head of the free list, else a new block; null when the pool has size `0`.
`pool_.malloc` does not fail. -/
def allocate (p : MemoryPoolThreadSafety T) (obj : T) : Option (Ptr × MemoryPoolThreadSafety T) :=
  if p.poolSize = 0 then none
  else match p.freeList with
    | block :: next =>
      some (block, { p with
        freeList := next
        objects := Function.update p.objects block (some obj) })
    | [] =>
      some (p.mallocs, { p with
        mallocs := p.mallocs + 1
        objects := Function.update p.objects p.mallocs (some obj) })

/-- `Deallocate`: the object is destroyed and the block goes to the front of the free list. -/
def deallocate (p : MemoryPoolThreadSafety T) (block : Ptr) :
    Option (MemoryPoolThreadSafety T) := do
  let _ ← p.objects block
  return { p with
    freeList := block :: p.freeList
    objects := Function.update p.objects block none }

/-- Assignment to the object in a block. -/
def write (p : MemoryPoolThreadSafety T) (block : Ptr) (obj : T) :
    Option (MemoryPoolThreadSafety T) := do
  let _ ← p.objects block
  return { p with objects := Function.update p.objects block (some obj) }

end MemoryPoolThreadSafety

end CryptobotAlgo.Common
