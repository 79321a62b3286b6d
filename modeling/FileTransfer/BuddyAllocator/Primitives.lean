import FileTransfer.Foundation.Intrusive
import FileTransfer.BuddyAllocator.Allocator

/-! What the primitive operations do to the links, the list heads and the blocks. -/
namespace FileTransfer
open Intrusive

/-- The fields of a block other than its links. -/
def BuddyAllocBlock.body (blk : BuddyAllocBlock) : UInt32 × ℕ × Bool × Bool :=
  (blk.offset, blk.level, blk.isActive, blk.isAllocated)

namespace BuddyAlloc
variable (b : BuddyAlloc) (p : ℕ) (blk : BuddyAllocBlock)

/-- The links of all blocks. -/
def links : Links ℕ := ⟨fun p => (b.block p).next, fun p => (b.block p).prev⟩

/-- What no operation changes. -/
def header : UInt32 × ℕ × UInt32 := (b.minBlockSize, b.numOfLevels, b.memPool.numOfElements)

theorem block_setBlock (q : ℕ) :
    (b.setBlock p blk).block q = if q = p then blk else b.block q := Function.update_apply ..

@[simp] theorem block_setBlock_self : (b.setBlock p blk).block p = blk := Function.update_self ..

theorem block_setBlock_of_ne {q : ℕ} (h : q ≠ p) : (b.setBlock p blk).block q = b.block q :=
  Function.update_of_ne h ..

theorem body_setBlock (q : ℕ) :
    ((b.setBlock p blk).block q).body = if q = p then blk.body else (b.block q).body := by
  rw [block_setBlock]
  split <;> rfl

section Frame
variable (ptr : Option ℕ) (flag : Bool) (level : ℕ)

@[simp] theorem freeList_setBlock : (b.setBlock p blk).freeList = b.freeList := rfl
@[simp] theorem freeList_setNext : (b.setNext p ptr).freeList = b.freeList := rfl
@[simp] theorem freeList_setPrev : (b.setPrev p ptr).freeList = b.freeList := rfl
@[simp] theorem freeList_setActive : (b.setActive p flag).freeList = b.freeList := rfl
@[simp] theorem freeList_setAllocated : (b.setAllocated p flag).freeList = b.freeList := rfl
@[simp] theorem freeList_setHead :
    (b.setHead level ptr).freeList = Function.update b.freeList level ptr := rfl

@[simp] theorem header_setBlock : (b.setBlock p blk).header = b.header := rfl
@[simp] theorem header_setNext : (b.setNext p ptr).header = b.header := rfl
@[simp] theorem header_setPrev : (b.setPrev p ptr).header = b.header := rfl
@[simp] theorem header_setActive : (b.setActive p flag).header = b.header := rfl
@[simp] theorem header_setAllocated : (b.setAllocated p flag).header = b.header := rfl
@[simp] theorem header_setHead : (b.setHead level ptr).header = b.header := rfl

@[simp] theorem block_setHead (q : ℕ) : (b.setHead level ptr).block q = b.block q := rfl
@[simp] theorem links_setHead : (b.setHead level ptr).links = b.links := rfl

@[simp] theorem links_setNext : (b.setNext p ptr).links = b.links.setNext p ptr := by
  ext x : 2 <;> by_cases h : x = p <;> simp [links, Links.setNext, setNext, block_setBlock, h]

@[simp] theorem links_setPrev : (b.setPrev p ptr).links = b.links.setPrev p ptr := by
  ext x : 2 <;> by_cases h : x = p <;> simp [links, Links.setPrev, setPrev, block_setBlock, h]

@[simp] theorem links_setActive : (b.setActive p flag).links = b.links := by
  ext x : 2 <;> by_cases h : x = p <;> simp [links, setActive, block_setBlock, h]

@[simp] theorem links_setAllocated : (b.setAllocated p flag).links = b.links := by
  ext x : 2 <;> by_cases h : x = p <;> simp [links, setAllocated, block_setBlock, h]

@[simp] theorem body_setNext (q : ℕ) : ((b.setNext p ptr).block q).body = (b.block q).body := by
  by_cases h : q = p <;> simp [setNext, block_setBlock, h, BuddyAllocBlock.body]

@[simp] theorem body_setPrev (q : ℕ) : ((b.setPrev p ptr).block q).body = (b.block q).body := by
  by_cases h : q = p <;> simp [setPrev, block_setBlock, h, BuddyAllocBlock.body]

theorem body_setActive (q : ℕ) : ((b.setActive p flag).block q).body =
    if q = p then ((b.block p).offset, (b.block p).level, flag, (b.block p).isAllocated)
    else (b.block q).body :=
  b.body_setBlock p _ q

theorem body_setAllocated (q : ℕ) : ((b.setAllocated p flag).block q).body =
    if q = p then ((b.block p).offset, (b.block p).level, (b.block p).isActive, flag)
    else (b.block q).body :=
  b.body_setBlock p _ q

end Frame
end BuddyAlloc

section Primitives
variable (b : BuddyAlloc)

theorem memPoolGetBlock_ok {slot : ℕ} (h : slot < b.memPool.numOfElements.toNat) :
    memPoolGetBlock b.memPool (UInt32.ofNat slot) = .ok slot := by
  have hlt := h.trans b.memPool.numOfElements.toNat_lt
  have hs : (UInt32.ofNat slot).toNat = slot := UInt32.toNat_ofNat_of_lt' hlt
  rw [memPoolGetBlock, if_neg, hs]
  rw [UInt32.le_iff_toNat_le, hs]
  omega

/-- The block that `create_new_block` writes. -/
def newBlock (level : ℕ) (offset : UInt32) : BuddyAllocBlock :=
  { next := none, prev := none, offset, level := level % 64, isActive := true, isAllocated := false }

theorem createNewBlock_run {level slot : ℕ} {offset blockSize : UInt32}
    (hs : calcBuddyAllocatorSlot offset level blockSize = UInt32.ofNat slot)
    (hlt : slot < b.memPool.numOfElements.toNat) (ha : (b.block slot).isActive = false) :
    (createNewBlock level offset blockSize).run b =
      .ok slot (b.setBlock slot (newBlock level offset)) := by
  simp only [createNewBlock, EStateM.run_bind, EStateM.run_get, hs, memPoolGetBlock_ok b hlt, ha]
  rfl

theorem linkedListAddBlock_run (p : ℕ) :
    ∃ b', (linkedListAddBlock p).run b = .ok () b' ∧
      b'.links = b.links.pushFront (b.freeList (b.block p).level) p ∧
      b'.freeList = Function.update b.freeList (b.block p).level (some p) ∧
      b'.header = b.header ∧ ∀ q, (b'.block q).body = (b.block q).body := by
  refine ⟨_, rfl, ?_, ?_, ?_, fun q => ?_⟩
  all_goals
    dsimp only
    cases b.freeList (b.block p).level <;> simp [Links.pushFront]

theorem linkedListExtractBlock_run (p level : ℕ) :
    ∃ b', (linkedListExtractBlock p level).run b = .ok () b' ∧
      b'.links = b.links.unlink p ∧
      b'.freeList = Function.update b.freeList level (b.links.unlinkHead (b.freeList level) p) ∧
      b'.header = b.header ∧ ∀ q, (b'.block q).body = (b.block q).body := by
  have hnext : b.links.next p = (b.block p).next := rfl
  have hprev : b.links.prev p = (b.block p).prev := rfl
  refine ⟨_, rfl, ?_, ?_, ?_, fun q => ?_⟩
  all_goals
    simp only [Links.unlink, Links.unlinkHead, hnext, hprev]
    cases (b.block p).prev <;> cases (b.block p).next <;> simp

end Primitives
end FileTransfer
