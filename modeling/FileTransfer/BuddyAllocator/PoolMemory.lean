import FileTransfer.Foundation.BitField
import FileTransfer.BuddyAllocator.Allocator

/-! The allocator of `buddy_allocator.c` with its blocks where the code has them: in the words
of an array, at a displacement that is computed in 32 bits. A pointer is an address, and zero is
NULL. In a pool of more than 27 levels the displacement wraps and the blocks of different slots
have words in common; up to there the slots are those of `FileTransfer.BuddyAlloc`.
A block on LP64 is three words: `next`, `prev`, and `offset` with the bit-fields behind it, from
the lowest bit on. An access that leaves an array, or that is not aligned, is undefined in C and
ends a run with `outOfBounds`. -/
namespace FileTransfer.PoolMemory

/-- Where `calloc` puts an array of words. -/
structure Location where
  addr : ℕ
  ne_null : addr ≠ 0
  aligned : 8 ∣ addr

structure MemPool where
  addr : ℕ
  elementsAddr : Option ℕ
  elementsArray : Location
  /-- The words of the array, by their addresses. -/
  words : ℕ → ℕ
  numOfElements : UInt32
  sizeOfElement : UInt32

structure BuddyAlloc where
  addr : ℕ
  minBlockSize : UInt32
  numOfLevels : ℕ
  memPool : MemPool
  /-- The heads of the free lists, by level. -/
  freeList : ℕ → ℕ

def offsetField : BitField := ⟨0, 32⟩
def levelField : BitField := ⟨32, 6⟩
def isActiveField : BitField := ⟨38, 1⟩
def isAllocatedField : BitField := ⟨39, 1⟩

/-! ### Words -/

/-- There is a word of the array at the address. -/
def MemPool.Holds (pool : MemPool) (p : ℕ) : Prop :=
  8 ∣ p ∧ pool.elementsArray.addr ≤ p ∧
    p < pool.elementsArray.addr + pool.numOfElements.toNat * pool.sizeOfElement.toNat

instance (pool : MemPool) (p : ℕ) : Decidable (pool.Holds p) :=
  inferInstanceAs (Decidable (_ ∧ _ ∧ _))

namespace BuddyAlloc

def setWord (b : BuddyAlloc) (p v : ℕ) : BuddyAlloc :=
  { b with memPool := { b.memPool with
    words := fun q => if q = p then v else b.memPool.words q } }

def setHead (b : BuddyAlloc) (level p : ℕ) : BuddyAlloc :=
  { b with freeList := fun l => if l = level then p else b.freeList l }

end BuddyAlloc

def load (p : ℕ) : Call BuddyAlloc ℕ := do
  let b ← get
  if b.memPool.Holds p then return b.memPool.words p else throw .outOfBounds

def store (p v : ℕ) : Call BuddyAlloc Unit := do
  let b ← get
  if b.memPool.Holds p then set (b.setWord p v) else throw .outOfBounds

def getNext (p : ℕ) : Call BuddyAlloc ℕ := load p
def setNext (p v : ℕ) : Call BuddyAlloc Unit := store p v
def getPrev (p : ℕ) : Call BuddyAlloc ℕ := load (p + 8)
def setPrev (p v : ℕ) : Call BuddyAlloc Unit := store (p + 8) v

def getField (f : BitField) (p : ℕ) : Call BuddyAlloc ℕ := do return f.get (← load (p + 16))

def setField (f : BitField) (p v : ℕ) : Call BuddyAlloc Unit := do
  let w ← load (p + 16)
  store (p + 16) (f.set w v)

def getOffset (p : ℕ) : Call BuddyAlloc UInt32 := do return UInt32.ofNat (← getField offsetField p)
def getLevel (p : ℕ) : Call BuddyAlloc ℕ := getField levelField p
def getActive (p : ℕ) : Call BuddyAlloc Bool := do return (← getField isActiveField p) = 1
def getAllocated (p : ℕ) : Call BuddyAlloc Bool := do return (← getField isAllocatedField p) = 1

def setOffset (p : ℕ) (offset : UInt32) : Call BuddyAlloc Unit :=
  setField offsetField p offset.toNat
def setLevel (p level : ℕ) : Call BuddyAlloc Unit := setField levelField p level
def setActive (p : ℕ) (isActive : Bool) : Call BuddyAlloc Unit :=
  setField isActiveField p isActive.toNat
def setAllocated (p : ℕ) (isAllocated : Bool) : Call BuddyAlloc Unit :=
  setField isAllocatedField p isAllocated.toNat

/-- There are no free lists from `num_of_levels` on. -/
def getHead (level : ℕ) : Call BuddyAlloc ℕ := do
  let b ← get
  if level < b.numOfLevels then return b.freeList level else throw .outOfBounds

def setHead (level p : ℕ) : Call BuddyAlloc Unit := do
  let b ← get
  if level < b.numOfLevels then set (b.setHead level p) else throw .outOfBounds

/-! ### The pool of blocks -/

/-- As `FileTransfer.memPoolCreate`, with the array at the given place. -/
def memPoolCreate (elementsArray : Location) (cfg : MemPoolCfg) :
    HeapCall (Except Errno Unit × Option MemPool) := do
  if cfg.numElements = 0 ∨ cfg.elementSize = 0 then
    return (.error .EINVAL, none)
  match ← request with
  | none => return (.error .ENOMEM, none)
  | some addr =>
    match ← request with
    | none =>
      release addr
      return (.error .ENOMEM, some ⟨addr, none, elementsArray, fun _ => 0, 0, 0⟩)
    | some elements =>
      return (.ok (), some ⟨addr, some elements, elementsArray, fun _ => 0, cfg.numElements,
        cfg.elementSize⟩)

def memPoolDestroy (pool : MemPool) : HeapCall Unit := do
  access pool.addr
  match pool.elementsAddr with
  | none => pure ()
  | some p => release p
  release pool.addr

/-- The displacement is a 32-bit product. -/
def memPoolGetBlock (slotIndex : UInt32) : Call BuddyAlloc ℕ := do
  let pool := (← get).memPool
  if pool.numOfElements ≤ slotIndex then throw .EINVAL
  return pool.elementsArray.addr + (slotIndex * pool.sizeOfElement).toNat

/-! ### The free lists -/

def createNewBlock (level : ℕ) (offset blockSize : UInt32) : Call BuddyAlloc ℕ := do
  let freeBlock ← memPoolGetBlock (calcBuddyAllocatorSlot offset level blockSize)
  if ← getActive freeBlock then throw .EINVAL
  setLevel freeBlock level
  setNext freeBlock 0
  setPrev freeBlock 0
  setOffset freeBlock offset
  setActive freeBlock true
  setAllocated freeBlock false
  return freeBlock

/-- `input_block->level` is read again for each of its uses. -/
def linkedListAddBlock (inputBlock : ℕ) : Call BuddyAlloc Unit := do
  if (← getHead (← getLevel inputBlock)) ≠ 0 then
    setPrev (← getHead (← getLevel inputBlock)) inputBlock
  setNext inputBlock (← getHead (← getLevel inputBlock))
  setPrev inputBlock 0
  setHead (← getLevel inputBlock) inputBlock

def linkedListExtractBlock (targetBlock level : ℕ) : Call BuddyAlloc Unit := do
  let nextBlock ← getNext targetBlock
  let prevBlock ← getPrev targetBlock
  if nextBlock ≠ 0 then setPrev nextBlock prevBlock
  if prevBlock ≠ 0 then setNext prevBlock nextBlock
  else setHead level nextBlock

/-! ### Splitting and merging -/

/-- The buddy's offset, and whether the buddy was free and has been removed. -/
def removeBuddyBlock (offset : UInt32) (level : ℕ) (blockSize : UInt32) :
    Call BuddyAlloc (UInt32 × Bool) := do
  let buddyOffset := getBuddyOffset offset blockSize
  let buddyBlock ← memPoolGetBlock (calcBuddyAllocatorSlot buddyOffset level blockSize)
  if !(← getActive buddyBlock) || (← getAllocated buddyBlock) then
    return (buddyOffset, false)
  linkedListExtractBlock buddyBlock level
  setActive buddyBlock false
  return (buddyOffset, true)

def allocateAtLevel (level : ℕ) : Call BuddyAlloc (Option ℕ) := do
  let targetBlock ← getHead level
  if targetBlock = 0 then return none
  linkedListExtractBlock targetBlock level
  setAllocated targetBlock true
  return some targetBlock

/-- `while (level > 0 && free_list[level].head == NULL) level--`, and the test after it. -/
def findNonEmptyLevel : ℕ → Call BuddyAlloc ℕ
  | 0 => do if (← getHead 0) = 0 then throw .ENFILE else return 0
  | level + 1 => do
    if (← getHead (level + 1)) = 0 then findNonEmptyLevel level else return level + 1

/-- The rounds of the loop of `split_block_down`; gives the size of the blocks of the last level. -/
def splitLoop (blkOffset : UInt32) : List ℕ → UInt32 → Call BuddyAlloc UInt32
  | [], bSize => return bSize
  | lev :: levels, bSize => do
    let bSize := bSize >>> 1
    let buddy ← createNewBlock lev (getBuddyOffset blkOffset bSize) bSize
    linkedListAddBlock buddy
    splitLoop blkOffset levels bSize

def splitBlockDown (srcLevel targetLevel : ℕ) : Call BuddyAlloc ℕ := do
  let b ← get
  if b.numOfLevels ≤ srcLevel ∨ b.numOfLevels ≤ targetLevel ∨ targetLevel ≤ srcLevel then
    throw .EINVAL
  let startBlock ← getHead srcLevel
  if startBlock = 0 then throw .ENOMEM
  linkedListExtractBlock startBlock srcLevel
  setActive startBlock false
  let blkOffset ← getOffset startBlock
  let b ← get
  let bSize ← splitLoop blkOffset (List.range' (srcLevel + 1) (targetLevel - srcLevel))
    (getBlockSize srcLevel b.minBlockSize b.numOfLevels)
  createNewBlock targetLevel blkOffset bSize

/-- The loop of `buddy_alloc_free`: level, offset and size of the block to free in the end. -/
def mergeLoop : ℕ → UInt32 → UInt32 → Call BuddyAlloc (ℕ × UInt32 × UInt32)
  | 0, blockOffset, blockSize => return (0, blockOffset, blockSize)
  | level + 1, blockOffset, blockSize => do
    let (buddyOffset, buddyExist) ← removeBuddyBlock blockOffset (level + 1) blockSize
    if buddyExist then
      mergeLoop level (MIN blockOffset buddyOffset) (blockSize <<< 1)
    else
      return (level + 1, blockOffset, blockSize)

/-! ### The interface -/

/-- As `FileTransfer.buddyAllocCreate`, where `calloc` puts the array of slots at the given
place. -/
def buddyAllocCreate (elementsArray : Location) (cfg : BuddyAllocCfg) : HeapCall BuddyAlloc := do
  let total := cfg.totalMemPoolSize
  let minb := cfg.minBlockSize
  if minb = 0 ∨ total = 0 ∨ total &&& (total - 1) ≠ 0 ∨ minb &&& (minb - 1) ≠ 0 then
    throw .EINVAL
  if total < minb then throw .EINVAL
  match calcNumOfLevels total minb with
  | .error e => throw e
  | .ok numOfLevels =>
  if MAX_LEVELS < numOfLevels then throw .EINVAL
  match calcMaxNodes numOfLevels with
  | .error e => throw e
  | .ok maxNodes =>
  match ← request with
  | none => throw .ENOMEM
  | some addr =>
  match ← memPoolCreate elementsArray ⟨sizeofBuddyAllocBlock, maxNodes⟩ with
  | (.ok _, some pool) =>
    let b : BuddyAlloc := ⟨addr, minb, numOfLevels, pool, fun _ => 0⟩
    match (createNewBlock 0 0 total >>= linkedListAddBlock).run b with
    | .ok _ b => return b
    | .error e b =>
      access addr
      memPoolDestroy b.memPool
      release addr
      throw e
  | (.error e, some pool) =>
    access addr
    memPoolDestroy pool
    release addr
    throw e
  | (.error e, none) =>
    access addr
    release addr
    throw e
  | (.ok _, none) => throw .EINVAL

def buddyAllocDestroy (b : BuddyAlloc) : HeapCall Unit := do
  access b.addr
  memPoolDestroy b.memPool
  release b.addr

def buddyAllocAllocate (blockSize : UInt32) : Call BuddyAlloc ℕ := do
  if blockSize = 0 then throw .EINVAL
  let b ← get
  match getBlockLevel b.minBlockSize b.numOfLevels (nextPow2 blockSize) with
  | .error e => throw e
  | .ok originalBlockLevel =>
    match ← allocateAtLevel originalBlockLevel with
    | some reqBlock => return reqBlock
    | none =>
      let level ← findNonEmptyLevel originalBlockLevel
      let reqBlock ← splitBlockDown level originalBlockLevel
      setAllocated reqBlock true
      return reqBlock

def buddyAllocFree (block : ℕ) : Call BuddyAlloc Unit := do
  let b ← get
  let level ← getLevel block
  if b.numOfLevels ≤ level then throw .EINVAL
  let blockOffset ← getOffset block
  setActive block false
  let (level, offset, size) ← mergeLoop level blockOffset
    (getBlockSize level b.minBlockSize b.numOfLevels)
  let currentBlock ← createNewBlock level offset size
  linkedListAddBlock currentBlock

def buddyAllocGetBlockOffset (blk : ℕ) : Call BuddyAlloc UInt32 := getOffset blk

def buddyAllocGetBlockLevel (blk : ℕ) : Call BuddyAlloc ℕ := getLevel blk

/-- `while (cur) { ++count; cur = cur->next; }`, or `none` if it takes more rounds than given.
The counter is an `int`. -/
def countNext (b : BuddyAlloc) : ℕ → ℕ → UInt32 → Option (Except Errno UInt32)
  | rounds, cur, count =>
    if cur = 0 then some (.ok count)
    else match rounds with
      | 0 => none
      | rounds + 1 =>
        if b.memPool.Holds cur then countNext b rounds (b.memPool.words cur) (count + 1)
        else some (.error .outOfBounds)

/-- `level` is not tested. -/
def buddyAllocCountFreeBlocks (rounds : ℕ) (b : BuddyAlloc) (level : UInt32) :
    Option (Except Errno UInt32) :=
  if level.toNat < b.numOfLevels then countNext b rounds (b.freeList level.toNat) 0
  else some (.error .outOfBounds)

end FileTransfer.PoolMemory
