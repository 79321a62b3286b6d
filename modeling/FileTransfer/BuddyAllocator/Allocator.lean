import FileTransfer.BuddyAllocator.Levels
import FileTransfer.Infra.Heap

/-! The buddy allocator of `buddy_allocator.c`. A pointer to a block is the index of the
element of the pool that it points at, and NULL is `none`; the objects that a function
works on are there, so its tests of them for NULL have no counterpart. Each index names an
element of its own. The code adds a displacement to the start of the array instead, which
wraps in a pool of more than 27 levels; that allocator is `PoolMemory.BuddyAlloc`, and up to
27 levels the two agree step by step. -/
namespace FileTransfer

structure BuddyAllocBlock where
  next : Option ℕ
  prev : Option ℕ
  offset : UInt32
  /-- A bit-field of six bits. -/
  level : ℕ
  isActive : Bool
  isAllocated : Bool
deriving DecidableEq, Repr

/-- A block as `calloc` leaves it. -/
def BuddyAllocBlock.zero : BuddyAllocBlock := ⟨none, none, 0, 0, false, false⟩

/-- `sizeof(struct buddy_alloc_block)` on LP64. -/
def sizeofBuddyAllocBlock : UInt32 := 24

structure MemPoolCfg where
  elementSize : UInt32
  numElements : UInt32

structure MemPool where
  addr : ℕ
  elementsAddr : Option ℕ
  /-- The blocks, by their index and not by their displacement. -/
  elements : ℕ → BuddyAllocBlock
  numOfElements : UInt32
  sizeOfElement : UInt32

structure BuddyAlloc where
  addr : ℕ
  minBlockSize : UInt32
  numOfLevels : ℕ
  memPool : MemPool
  /-- The heads of the free lists, by level. -/
  freeList : ℕ → Option ℕ

structure BuddyAllocCfg where
  totalMemPoolSize : UInt32
  minBlockSize : UInt32
deriving DecidableEq, Repr

namespace BuddyAlloc

def block (b : BuddyAlloc) (p : ℕ) : BuddyAllocBlock := b.memPool.elements p

def setBlock (b : BuddyAlloc) (p : ℕ) (blk : BuddyAllocBlock) : BuddyAlloc :=
  { b with memPool := { b.memPool with elements := Function.update b.memPool.elements p blk } }

def setNext (b : BuddyAlloc) (p : ℕ) (next : Option ℕ) : BuddyAlloc :=
  b.setBlock p { b.block p with next }

def setPrev (b : BuddyAlloc) (p : ℕ) (prev : Option ℕ) : BuddyAlloc :=
  b.setBlock p { b.block p with prev }

def setActive (b : BuddyAlloc) (p : ℕ) (isActive : Bool) : BuddyAlloc :=
  b.setBlock p { b.block p with isActive }

def setAllocated (b : BuddyAlloc) (p : ℕ) (isAllocated : Bool) : BuddyAlloc :=
  b.setBlock p { b.block p with isAllocated }

def setHead (b : BuddyAlloc) (level : ℕ) (p : Option ℕ) : BuddyAlloc :=
  { b with freeList := Function.update b.freeList level p }

end BuddyAlloc

/-! ### The pool of blocks -/

/-- Also gives what `*pool` holds afterwards: when the second request fails it still points
at the released object. -/
def memPoolCreate (cfg : MemPoolCfg) : HeapCall (Except Errno Unit × Option MemPool) := do
  if cfg.numElements = 0 ∨ cfg.elementSize = 0 then
    return (.error .EINVAL, none)
  match ← request with
  | none => return (.error .ENOMEM, none)
  | some addr =>
    match ← request with
    | none =>
      release addr
      return (.error .ENOMEM, some ⟨addr, none, fun _ => .zero, 0, 0⟩)
    | some elements =>
      return (.ok (), some ⟨addr, some elements, fun _ => .zero, cfg.numElements, cfg.elementSize⟩)

def memPoolDestroy (pool : MemPool) : HeapCall Unit := do
  access pool.addr
  match pool.elementsAddr with
  | none => pure ()
  | some p => release p
  release pool.addr

/-- Gives the index, where the code gives the address at the displacement of the index. -/
def memPoolGetBlock (pool : MemPool) (slotIndex : UInt32) : Except Errno ℕ :=
  if pool.numOfElements ≤ slotIndex then .error .EINVAL else .ok slotIndex.toNat

/-! ### The free lists -/

def createNewBlock (level : ℕ) (offset blockSize : UInt32) : Call BuddyAlloc ℕ := do
  let b ← get
  match memPoolGetBlock b.memPool (calcBuddyAllocatorSlot offset level blockSize) with
  | .error e => throw e
  | .ok freeBlock =>
    if (b.block freeBlock).isActive then throw .EINVAL
    set (b.setBlock freeBlock
      { next := none, prev := none, offset, level := level % 64,
        isActive := true, isAllocated := false })
    return freeBlock

def linkedListAddBlock (inputBlock : ℕ) : Call BuddyAlloc Unit := modify fun b =>
  let level := (b.block inputBlock).level
  let head := b.freeList level
  let b := match head with
    | some h => b.setPrev h (some inputBlock)
    | none => b
  let b := (b.setNext inputBlock head).setPrev inputBlock none
  b.setHead level (some inputBlock)

def linkedListExtractBlock (targetBlock level : ℕ) : Call BuddyAlloc Unit := modify fun b =>
  let nextBlock := (b.block targetBlock).next
  let prevBlock := (b.block targetBlock).prev
  let b := match nextBlock with
    | some p => b.setPrev p prevBlock
    | none => b
  match prevBlock with
  | some p => b.setNext p nextBlock
  | none => b.setHead level nextBlock

/-! ### Splitting and merging -/

/-- The buddy's offset, and whether the buddy was free and has been removed. -/
def removeBuddyBlock (offset : UInt32) (level : ℕ) (blockSize : UInt32) :
    Call BuddyAlloc (UInt32 × Bool) := do
  let buddyOffset := getBuddyOffset offset blockSize
  let b ← get
  match memPoolGetBlock b.memPool (calcBuddyAllocatorSlot buddyOffset level blockSize) with
  | .error e => throw e
  | .ok buddyBlock =>
    if !(b.block buddyBlock).isActive || (b.block buddyBlock).isAllocated then
      return (buddyOffset, false)
    linkedListExtractBlock buddyBlock level
    modify (·.setActive buddyBlock false)
    return (buddyOffset, true)

def allocateAtLevel (level : ℕ) : Call BuddyAlloc (Option ℕ) := do
  match (← get).freeList level with
  | none => return none
  | some targetBlock =>
    linkedListExtractBlock targetBlock level
    modify (·.setAllocated targetBlock true)
    return some targetBlock

/-- `while (level > 0 && free_list[level].head == NULL) level--`, and the test after it. -/
def findNonEmptyLevel (b : BuddyAlloc) : ℕ → Except Errno ℕ
  | 0 => if b.freeList 0 = none then .error .ENFILE else .ok 0
  | level + 1 =>
    if b.freeList (level + 1) = none then findNonEmptyLevel b level else .ok (level + 1)

/-- The rounds of the loop of `split_block_down`; gives the size of the blocks of the last level. -/
def splitLoop (blkOffset : UInt32) : List ℕ → UInt32 → Call BuddyAlloc UInt32
  | [], bSize => return bSize
  | lev :: levels, bSize => do
    let bSize := bSize >>> 1
    let buddy ← createNewBlock lev (getBuddyOffset blkOffset bSize) bSize
    linkedListAddBlock buddy
    splitLoop blkOffset levels bSize

def splitBlockDown (srcLevel targetLevel : ℕ) : Call BuddyAlloc ℕ := do
  let b ← get
  if b.numOfLevels ≤ srcLevel ∨ b.numOfLevels ≤ targetLevel ∨ targetLevel ≤ srcLevel then
    throw .EINVAL
  match b.freeList srcLevel with
  | none => throw .ENOMEM
  | some startBlock =>
    linkedListExtractBlock startBlock srcLevel
    modify (·.setActive startBlock false)
    let b ← get
    let blkOffset := (b.block startBlock).offset
    let bSize ← splitLoop blkOffset (List.range' (srcLevel + 1) (targetLevel - srcLevel))
      (getBlockSize srcLevel b.minBlockSize b.numOfLevels)
    createNewBlock targetLevel blkOffset bSize

/-- The loop of `buddy_alloc_free`: level, offset and size of the block to free in the end. -/
def mergeLoop : ℕ → UInt32 → UInt32 → Call BuddyAlloc (ℕ × UInt32 × UInt32)
  | 0, blockOffset, blockSize => return (0, blockOffset, blockSize)
  | level + 1, blockOffset, blockSize => do
    let (buddyOffset, buddyExist) ← removeBuddyBlock blockOffset (level + 1) blockSize
    if buddyExist then
      mergeLoop level (MIN blockOffset buddyOffset) (blockSize <<< 1)
    else
      return (level + 1, blockOffset, blockSize)

/-! ### The interface -/

def buddyAllocCreate (cfg : BuddyAllocCfg) : HeapCall BuddyAlloc := do
  let total := cfg.totalMemPoolSize
  let minb := cfg.minBlockSize
  if minb = 0 ∨ total = 0 ∨ total &&& (total - 1) ≠ 0 ∨ minb &&& (minb - 1) ≠ 0 then
    throw .EINVAL
  if total < minb then throw .EINVAL
  match calcNumOfLevels total minb with
  | .error e => throw e
  | .ok numOfLevels =>
  if MAX_LEVELS < numOfLevels then throw .EINVAL
  match calcMaxNodes numOfLevels with
  | .error e => throw e
  | .ok maxNodes =>
  match ← request with
  | none => throw .ENOMEM
  | some addr =>
  match ← memPoolCreate ⟨sizeofBuddyAllocBlock, maxNodes⟩ with
  | (.ok _, some pool) =>
    let b : BuddyAlloc := ⟨addr, minb, numOfLevels, pool, fun _ => none⟩
    match (createNewBlock 0 0 total >>= linkedListAddBlock).run b with
    | .ok _ b => return b
    | .error e b =>
      access addr
      memPoolDestroy b.memPool
      release addr
      throw e
  | (.error e, some pool) =>
    access addr
    memPoolDestroy pool
    release addr
    throw e
  | (.error e, none) =>
    access addr
    release addr
    throw e
  | (.ok _, none) => throw .EINVAL

def buddyAllocDestroy (b : BuddyAlloc) : HeapCall Unit := do
  access b.addr
  memPoolDestroy b.memPool
  release b.addr

def buddyAllocAllocate (blockSize : UInt32) : Call BuddyAlloc ℕ := do
  if blockSize = 0 then throw .EINVAL
  let b ← get
  match getBlockLevel b.minBlockSize b.numOfLevels (nextPow2 blockSize) with
  | .error e => throw e
  | .ok originalBlockLevel =>
    match ← allocateAtLevel originalBlockLevel with
    | some reqBlock => return reqBlock
    | none =>
      match findNonEmptyLevel (← get) originalBlockLevel with
      | .error e => throw e
      | .ok level =>
        let reqBlock ← splitBlockDown level originalBlockLevel
        modify (·.setAllocated reqBlock true)
        return reqBlock

def buddyAllocFree (block : ℕ) : Call BuddyAlloc Unit := do
  let b ← get
  let level := (b.block block).level
  if b.numOfLevels ≤ level then throw .EINVAL
  modify (·.setActive block false)
  let (level, offset, size) ← mergeLoop level (b.block block).offset
    (getBlockSize level b.minBlockSize b.numOfLevels)
  let currentBlock ← createNewBlock level offset size
  linkedListAddBlock currentBlock

def buddyAllocGetBlockOffset (b : BuddyAlloc) (blk : ℕ) : UInt32 := (b.block blk).offset

def buddyAllocGetBlockLevel (b : BuddyAlloc) (blk : ℕ) : ℕ := (b.block blk).level

end FileTransfer
