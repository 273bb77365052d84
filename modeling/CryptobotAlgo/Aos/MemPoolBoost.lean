import CryptobotAlgo.Aos.MemPool
import CryptobotAlgo.Machine.Basic
import Mathlib.Data.Finset.Erase
import Mathlib.Data.Finset.Insert
import Mathlib.Data.Set.Insert

/-!
# The memory pool and the memory of `boost::pool`

`MemoryPoolThreadSafety` with the `boost::pool` that it has its blocks from, used by one thread.
The free list of the wrapper goes through the blocks: the first word of a free block is the pointer
to the next one.  `Clear` gives the memory back to the system, and leaves `head_` as it is.

`boost::pool` is any type of states with the functions that are called, and `BoostPool.Documented`
is what its documentation says of them.
-/

namespace CryptobotAlgo.Common

/-- `boost::pool<>`: what is called of it, and the memory that it has. -/
structure BoostPool (σ : Type*) where
  /-- The constructor, with the number of chunks that it asks the system for. -/
  new : ℕ → σ
  malloc : σ → Option Ptr × σ
  purgeMemory : σ → σ
  /-- The memory that the pool has from the system. -/
  owned : σ → Set Ptr
  /-- The blocks that `malloc` has given out. -/
  given : σ → Set Ptr

/-- What is documented of `boost::pool`. -/
structure BoostPool.Documented {σ : Type*} (B : BoostPool σ) : Prop where
  /-- What is given out is memory of the pool. -/
  given_subset : ∀ s, B.given s ⊆ B.owned s
  /-- `malloc` gives out a block of the pool that is not given out yet. -/
  malloc_block : ∀ s block s', B.malloc s = (some block, s') →
    block ∈ B.owned s' ∧ block ∉ B.given s ∧ B.given s' = insert block (B.given s)
  malloc_null : ∀ s s', B.malloc s = (none, s') → B.given s' = B.given s
  /-- `purge_memory` gives all memory back to the system. -/
  purge_owned : ∀ s, B.owned (B.purgeMemory s) = ∅

/-- `MemoryPoolThreadSafety<T>` over `boost::pool`. -/
structure ClearablePool (σ : Type*) where
  poolSize : ℕ
  /-- `pool_` -/
  pool : σ
  /-- `head_` -/
  head : Option Ptr := none
  /-- the first word of each block -/
  words : Ptr → Option Ptr
  /-- the objects that are allocated, and neither deallocated nor cleared since -/
  live : Finset Ptr := ∅

namespace ClearablePool

variable {σ : Type*} (B : BoostPool σ)

/-- The constructor; the memory has any contents. -/
def new (poolSize : ℕ) (memory : Ptr → Option Ptr) : ClearablePool σ where
  poolSize := poolSize
  pool := B.new poolSize
  words := memory

/-- `new (block) T(...)`, which leaves `word` at the start of the object. -/
def construct (p : ClearablePool σ) (block : Ptr) (word : Option Ptr) : ClearablePool σ :=
  { p with words := Function.update p.words block word, live := insert block p.live }

/-- `Allocate`: the pointer, and the pool. -/
def allocate (p : ClearablePool σ) (word : Option Ptr) : Option Ptr × ClearablePool σ :=
  if p.poolSize = 0 then (none, p)
  else
    match p.head with
    | some block =>
      -- `compare_exchange_strong` does not fail, there is no other thread
      (some block, { p with head := p.words block }.construct block word)
    | none =>
      match B.malloc p.pool with
      | (some obj, pool) => (some obj, { p with pool }.construct obj word)
      | (none, pool) => (none, { p with pool })

/-- `Deallocate`; `none` is the null pointer. -/
def deallocate (p : ClearablePool σ) : Option Ptr → ClearablePool σ
  | none => p
  | some obj =>
    { p with
      head := some obj
      words := Function.update p.words obj p.head
      live := p.live.erase obj }

/-- `Clear`. -/
def clear (p : ClearablePool σ) : ClearablePool σ :=
  { p with pool := B.purgeMemory p.pool, live := ∅ }

end ClearablePool

/-- What is done with a pool. -/
inductive ClearablePoolCall
  /-- `Allocate`, where the new object starts with `word` -/
  | allocate (word : Option Ptr)
  | deallocate (obj : Option Ptr)
  | clear
  /-- the first word of an object is overwritten, or of memory that the pool does not have -/
  | write (block : Ptr) (word : Option Ptr)
  deriving DecidableEq, Repr

namespace ClearablePool

variable {σ : Type*} (B : BoostPool σ)

/-- The pool after a call, and the pointers that the call returns. -/
def step (p : ClearablePool σ) : ClearablePoolCall → ClearablePool σ × List (Option Ptr)
  | .allocate word => ((p.allocate B word).2, [(p.allocate B word).1])
  | .deallocate obj => (p.deallocate obj, [])
  | .clear => (p.clear B, [])
  | .write block word => ({ p with words := Function.update p.words block word }, [])

/-- Only live objects are deallocated and written. -/
def Enabled (p : ClearablePool σ) : ClearablePoolCall → Prop
  | .allocate _ => True
  | .deallocate obj => ∀ block, obj = some block → block ∈ p.live
  | .clear => True
  | .write block _ => block ∈ p.live ∨ block ∉ B.owned p.pool

end ClearablePool

/-- A pool that is used by one thread. -/
def clearablePoolMachine {σ : Type*} (B : BoostPool σ) :
    Machine (ClearablePool σ) ClearablePoolCall (Option Ptr) where
  enabled := ClearablePool.Enabled B
  step := ClearablePool.step B

end CryptobotAlgo.Common
