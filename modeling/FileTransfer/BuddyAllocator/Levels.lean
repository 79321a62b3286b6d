import FileTransfer.Infra.Errno

/-! Sizes, levels and slots of the buddy tree, in the `uint32_t` arithmetic of the code.
Level numbers and the counters of the loops over levels are natural numbers: they stay
below `MAX_LEVELS`. Byte sizes, offsets and slot indices are 32-bit words. -/
namespace FileTransfer

def MAX_LEVELS : ℕ := 64

def MIN (a b : UInt32) : UInt32 := if a < b then a else b

def getBuddyOffset (blockOffset blockSize : UInt32) : UInt32 := blockOffset ^^^ blockSize

def getBlockSize (blockLevel : ℕ) (minBlockSize : UInt32) (numOfLevels : ℕ) : UInt32 :=
  minBlockSize <<< UInt32.ofNat (numOfLevels - 1 - blockLevel)

/-- `for (t = ...; t > 0; t >>= 1) levels++`; a word is zero after 32 rounds. -/
def countLevels : ℕ → UInt32 → ℕ
  | 0, _ => 0
  | rounds + 1, t => if 0 < t then countLevels rounds (t >>> 1) + 1 else 0

def calcNumOfLevels (blockSize minBlockSize : UInt32) : Except Errno ℕ :=
  if minBlockSize = 0 then .error .EINVAL
  else .ok (countLevels 32 (blockSize / minBlockSize))

def nextPow2 (v : UInt32) : UInt32 :=
  if v = 0 then 0
  else
    let v := v - 1
    let v := v ||| (v >>> 1)
    let v := v ||| (v >>> 2)
    let v := v ||| (v >>> 4)
    let v := v ||| (v >>> 8)
    let v := v ||| (v >>> 16)
    v + 1

def calcMaxNodes (numOfLevels : ℕ) : Except Errno UInt32 :=
  if MAX_LEVELS < numOfLevels ∨ numOfLevels = 0 then .error .EINVAL
  else .ok ((List.range numOfLevels).foldl (fun nodes i => nodes + 1 <<< UInt32.ofNat i) 0)

/-- `while (size > minb) { size >>= 1; shift_count++; }`, at most 32 rounds. -/
def countShifts : ℕ → UInt32 → UInt32 → ℕ
  | 0, _, _ => 0
  | rounds + 1, size, minb =>
    if minb < size then countShifts rounds (size >>> 1) minb + 1 else 0

/-- The level of blocks of the given size in an allocator with these two parameters. -/
def getBlockLevel (minBlockSize : UInt32) (numOfLevels : ℕ) (blockSize : UInt32) :
    Except Errno ℕ :=
  if blockSize < minBlockSize ∨ blockSize &&& (blockSize - 1) ≠ 0 then .error .EINVAL
  else
    let shiftCount := countShifts 32 blockSize minBlockSize
    let maxLvl := numOfLevels - 1
    if maxLvl < shiftCount then .error .EINVAL else .ok (maxLvl - shiftCount)

def calcBuddyAllocatorSlot (offset : UInt32) (blockLevel : ℕ) (blockSize : UInt32) : UInt32 :=
  (1 <<< UInt32.ofNat blockLevel - 1) + offset / blockSize

end FileTransfer
