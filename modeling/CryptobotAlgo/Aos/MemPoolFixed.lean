import CryptobotAlgo.WhileLoop
import Mathlib.Data.Finset.Erase
import Mathlib.Data.Finset.Insert
import Mathlib.Data.Nat.Notation
import Mathlib.Logic.Function.Basic

/-!
# The memory pool of a fixed number of blocks

`MemPool` keeps its blocks in a vector, which never grows, and remembers the index of a block that
is free.  `allocate` takes this block and then looks for the next free one, around the vector.  An
element is named by the index of its block.

`Objects` says which objects live after some calls, for any pool.
-/

namespace CryptobotAlgo.Common

/-- `ObjectBlock`. -/
structure ObjectBlock (T : Type*) where
  object : T
  isFree : Bool := true

/-- `MemPool<T>`, with `n` blocks. -/
structure MemPool (T : Type*) (n : ℕ) where
  store : Fin n → ObjectBlock T
  nextFreeIndex : Fin n

/-- Why a call does not return. -/
inductive MemPoolStop
  /-- An `ASSERT` fails. -/
  | assertion (text : String)
  /-- The fuel is not enough for a loop. -/
  | outOfFuel
  deriving DecidableEq, Repr

namespace MemPool

variable {T : Type*} {n : ℕ}

/-- The constructor. -/
def new [Inhabited T] (hn : 1 ≤ n) : MemPool T n where
  store := fun _ => { object := default }
  nextFreeIndex := ⟨0, hn⟩

/-- `updateNextFreeIndex`.  Back at the index from which it has started, the loop logs that there is
no space, and goes on. -/
def updateNextFreeIndex (fuel : ℕ) (store : Fin n → ObjectBlock T) (nextFreeIndex : Fin n) :
    Option (Fin n) :=
  whileLoop (fun index => !(store index).isFree) ringNext fuel nextFreeIndex

/-- The object is constructed in the block, which is marked as in use. -/
def construct (store : Fin n → ObjectBlock T) (index : Fin n) (object : T) :
    Fin n → ObjectBlock T :=
  Function.update store index { object := object, isFree := false }

/-- `allocate`: the element and the pool. -/
def allocate (fuel : ℕ) (p : MemPool T n) (object : T) :
    Except MemPoolStop (Fin n × MemPool T n) :=
  if !(p.store p.nextFreeIndex).isFree then
    .error (.assertion
      ("Expected free ObjectBlock at index:" ++ toString p.nextFreeIndex.val))
  else
    let store := construct p.store p.nextFreeIndex object
    match updateNextFreeIndex fuel store p.nextFreeIndex with
    | none => .error .outOfFuel
    | some nextFreeIndex => .ok (p.nextFreeIndex, { store, nextFreeIndex })

/-- `deallocate`; `none` is the null pointer, and an element of another pool has any other index. -/
def deallocate (p : MemPool T n) (elem : Option ℤ) : Except MemPoolStop (MemPool T n) :=
  let elemIndex := elem.getD (-1)
  if h : 0 ≤ elemIndex ∧ elemIndex < n then
    let index : Fin n := ⟨elemIndex.toNat, by omega⟩
    if (p.store index).isFree then
      .error (.assertion ("Expected in-use ObjectBlock at index:" ++ toString elemIndex))
    else
      let block := { p.store index with isFree := true }
      .ok { p with store := Function.update p.store index block }
  else
    .error (.assertion "Element being deallocated does not belong to this Memory pool.")

end MemPool

/-- A call of a memory pool; an object is named by the number of the `allocate` that made it. -/
inductive MemPoolCall (T : Type*)
  | allocate (object : T)
  | deallocate (made : ℕ)
  deriving DecidableEq, Repr

/-- How many objects have been made, and which of them live. -/
structure Objects where
  made : ℕ := 0
  live : Finset ℕ := ∅
  lt_made : ∀ k ∈ live, k < made := by exact nofun

namespace Objects

def call {T : Type*} (o : Objects) : MemPoolCall T → Objects
  | .allocate _ => {
      made := o.made + 1
      live := insert o.made o.live
      lt_made := by
        intro k hk
        rcases Finset.mem_insert.mp hk with rfl | hk
        · exact Nat.lt_succ_self _
        · exact Nat.lt_succ_of_lt (o.lt_made k hk) }
  | .deallocate k => {
      made := o.made
      live := o.live.erase k
      lt_made := fun j hj => o.lt_made j (Finset.mem_of_mem_erase hj) }

/-- The objects after some calls. -/
def after {T : Type*} (calls : List (MemPoolCall T)) : Objects := calls.foldl call {}

end Objects

/-- A pool, and the elements that `allocate` has returned. -/
structure MemPoolUser (T : Type*) (n : ℕ) where
  pool : MemPool T n
  elems : List (Fin n) := []

namespace MemPoolUser

variable {T : Type*} {n : ℕ}

def call (fuel : ℕ) (u : MemPoolUser T n) : MemPoolCall T → Except MemPoolStop (MemPoolUser T n)
  | .allocate object => (u.pool.allocate fuel object).map fun (elem, pool) =>
      { pool, elems := u.elems ++ [elem] }
  | .deallocate k => (u.pool.deallocate (u.elems[k]?.map fun elem : Fin n => (elem.val : ℤ))).map
      fun pool => { u with pool }

/-- The calls, one after the other, of a new pool. -/
def run [Inhabited T] (hn : 1 ≤ n) (fuel : ℕ) (calls : List (MemPoolCall T)) :
    Except MemPoolStop (MemPoolUser T n) :=
  calls.foldlM (call fuel) { pool := MemPool.new hn }

end MemPoolUser

end CryptobotAlgo.Common
