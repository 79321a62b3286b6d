import FileTransfer.Infra.Heap

/-! The id pool of `id_pool.c`: a stack of free ids and a flag for each id. -/
namespace FileTransfer

structure IdPoolCfg where
  capacity : UInt32
  idStartOffset : UInt32
deriving DecidableEq, Repr

/-- Both arrays have `capacity` elements. -/
structure IdPool where
  addr : ℕ
  inUse : ℕ → Bool
  capacity : UInt32
  top : UInt32
  idStartOffset : UInt32
  freeIds : ℕ → UInt32

def idPoolCreate (cfg : IdPoolCfg) : HeapCall IdPool := do
  if cfg.capacity = 0 then throw .EINVAL
  match ← request with
  | none => throw .ENOMEM
  | some addr =>
    return {
      addr, inUse := fun _ => false, capacity := cfg.capacity, top := cfg.capacity,
      idStartOffset := cfg.idStartOffset
      freeIds := fun i => cfg.idStartOffset + (cfg.capacity - 1 - UInt32.ofNat i) }

def idPoolAllocate : Call IdPool UInt32 := do
  let pool ← get
  if pool.top = 0 then throw .ENOENT
  let top := pool.top - 1
  if pool.capacity ≤ top then throw .outOfBounds
  let outId := pool.freeIds top.toNat
  let idx := outId - pool.idStartOffset
  if pool.capacity ≤ idx then throw .outOfBounds
  set { pool with top, inUse := Function.update pool.inUse idx.toNat true }
  return outId

def idPoolFree (id : UInt32) : Call IdPool Unit := do
  let pool ← get
  let idx := id - pool.idStartOffset
  if pool.capacity + pool.idStartOffset ≤ id ∨ id < pool.idStartOffset then throw .ESPIPE
  if pool.capacity ≤ idx then throw .outOfBounds
  if !pool.inUse idx.toNat then throw .EALREADY
  set { pool with inUse := Function.update pool.inUse idx.toNat false }
  if pool.capacity ≤ pool.top then throw .outOfBounds
  modify fun pool => { pool with
    freeIds := Function.update pool.freeIds pool.top.toNat id, top := pool.top + 1 }

def idPoolDestroy (pool : IdPool) : HeapCall Unit := release pool.addr

/-- The count is an `int`, negative from `2 ^ 31` on. -/
def idPoolGetUsedIdCount (pool : IdPool) : Except Errno UInt32 :=
  let count := (pool.capacity - pool.top).toInt32
  if count < 0 then .error .EINVAL else .ok count.toUInt32

end FileTransfer
