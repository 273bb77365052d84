/-!
# Ids for orders

Ids come back to a pool, and the pool is used before the generator.
-/

namespace CryptobotAlgo.Aos

/-- `NumberPool`: a queue of the ids that have come back. -/
structure NumberPool where
  pool : List UInt64 := []
  deriving DecidableEq, Repr

namespace NumberPool

def returnToPool (p : NumberPool) (id : UInt64) : NumberPool where
  pool := p.pool ++ [id]

def getFromPool (p : NumberPool) : (Bool × UInt64) × NumberPool :=
  match p.pool with
  | [] => ((false, 0), p)
  | id :: rest => ((true, id), { pool := rest })

@[simp] theorem pool_returnToPool (p : NumberPool) (id : UInt64) :
    (p.returnToPool id).pool = p.pool ++ [id] := rfl

end NumberPool

/-- `UIDGenerator`; the counter wraps around. -/
structure UIDGenerator where
  currentId : UInt64 := 0
  deriving DecidableEq, Repr

def UIDGenerator.generateUniqueID (g : UIDGenerator) : UInt64 × UIDGenerator :=
  (g.currentId, { currentId := g.currentId + 1 })

/-- `UIDManager`. -/
structure UIDManager where
  idGenerator : UIDGenerator := {}
  numberPool : NumberPool := {}
  deriving DecidableEq, Repr

namespace UIDManager

def getUniqueID (m : UIDManager) : UInt64 × UIDManager :=
  let r := m.numberPool.getFromPool
  let m := { m with numberPool := r.2 }
  if !r.1.1 then
    let g := m.idGenerator.generateUniqueID
    (g.1, { m with idGenerator := g.2 })
  else
    (r.1.2, m)

def returnIDToPool (m : UIDManager) (id : UInt64) : UIDManager :=
  { m with numberPool := m.numberPool.returnToPool id }

variable {m : UIDManager}

/-- The generator is asked only when the pool is empty. -/
theorem getUniqueID_of_nil (h : m.numberPool.pool = []) :
    m.getUniqueID = (m.idGenerator.currentId,
      { m with idGenerator := { currentId := m.idGenerator.currentId + 1 } }) := by
  have hget : m.numberPool.getFromPool = ((false, 0), m.numberPool) := by
    unfold NumberPool.getFromPool
    rw [h]
  unfold getUniqueID
  rw [hget]
  rfl

theorem getUniqueID_of_cons {id : UInt64} {rest : List UInt64}
    (h : m.numberPool.pool = id :: rest) :
    m.getUniqueID = (id, { m with numberPool := { pool := rest } }) := by
  have hget : m.numberPool.getFromPool = ((true, id), { pool := rest }) := by
    unfold NumberPool.getFromPool
    rw [h]
  unfold getUniqueID
  rw [hget]
  rfl

@[simp] theorem pool_returnIDToPool (m : UIDManager) (id : UInt64) :
    (m.returnIDToPool id).numberPool.pool = m.numberPool.pool ++ [id] := rfl

end UIDManager

end CryptobotAlgo.Aos
