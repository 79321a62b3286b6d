import FileTransfer.BuddyAllocator.PoolMemory
import FileTransfer.BuddyAllocator.Primitives

/-! What the words of a pool show: slot by slot the block that is read at the address of the slot.
In a pool of at most 27 levels no two slots share a word, and a store in one of them changes the
block of that slot only. -/
namespace FileTransfer.PoolMemory

/-- Offset, level and flags in the third word of a block. -/
def decodeBody (w : ℕ) : UInt32 × ℕ × Bool × Bool :=
  (UInt32.ofNat (offsetField.get w), levelField.get w, isActiveField.get w = 1,
    isAllocatedField.get w = 1)

section Body
variable (w v : ℕ) (flag : Bool)

theorem decodeBody_zero : decodeBody 0 = BuddyAllocBlock.zero.body := rfl

theorem decodeBody_setOffset (offset : UInt32) :
    decodeBody (offsetField.set w offset.toNat) = (offset, (decodeBody w).2) := by
  have hoffset : offsetField.get (offsetField.set w offset.toNat) = offset.toNat :=
    BitField.get_set_of_lt offset.toNat_lt
  unfold decodeBody
  rw [hoffset, BitField.get_set_of_apart (by decide : levelField.Apart offsetField),
    BitField.get_set_of_apart (by decide : isActiveField.Apart offsetField),
    BitField.get_set_of_apart (by decide : isAllocatedField.Apart offsetField),
    UInt32.ofNat_toNat]

theorem decodeBody_setLevel : decodeBody (levelField.set w v) =
    ((decodeBody w).1, v % 64, (decodeBody w).2.2) := by
  unfold decodeBody
  rw [BitField.get_set, BitField.get_set_of_apart (by decide : offsetField.Apart levelField),
    BitField.get_set_of_apart (by decide : isActiveField.Apart levelField),
    BitField.get_set_of_apart (by decide : isAllocatedField.Apart levelField)]
  rfl

theorem decide_get_set_toNat {f : BitField} (hf : f.width = 1) :
    decide (f.get (f.set w flag.toNat) = 1) = flag := by
  rw [BitField.get_set, hf]
  cases flag <;> rfl

theorem decodeBody_setActive : decodeBody (isActiveField.set w flag.toNat) =
    ((decodeBody w).1, (decodeBody w).2.1, flag, (decodeBody w).2.2.2) := by
  unfold decodeBody
  rw [decide_get_set_toNat w flag (f := isActiveField) rfl,
    BitField.get_set_of_apart (by decide : offsetField.Apart isActiveField),
    BitField.get_set_of_apart (by decide : levelField.Apart isActiveField),
    BitField.get_set_of_apart (by decide : isAllocatedField.Apart isActiveField)]

theorem decodeBody_setAllocated : decodeBody (isAllocatedField.set w flag.toNat) =
    ((decodeBody w).1, (decodeBody w).2.1, (decodeBody w).2.2.1, flag) := by
  unfold decodeBody
  rw [decide_get_set_toNat w flag (f := isAllocatedField) rfl,
    BitField.get_set_of_apart (by decide : offsetField.Apart isAllocatedField),
    BitField.get_set_of_apart (by decide : levelField.Apart isAllocatedField),
    BitField.get_set_of_apart (by decide : isActiveField.Apart isAllocatedField)]

end Body

namespace MemPool
variable (pool : MemPool)

/-- The address that `mem_pool_get_block` gives for a slot. -/
def address (i : ℕ) : ℕ :=
  pool.elementsArray.addr + (UInt32.ofNat i * pool.sizeOfElement).toNat

/-- The slot that a pointer names. A pointer that names none gives a number behind all slots. -/
def slotAt (v : ℕ) : Option ℕ :=
  if v = 0 then none
  else if h : ∃ i, i < pool.numOfElements.toNat ∧ pool.address i = v then some (Nat.find h)
  else some (pool.numOfElements.toNat + v)

/-- The block that is read at an address. -/
def blockAt (p : ℕ) : BuddyAllocBlock where
  next := pool.slotAt (pool.words p)
  prev := pool.slotAt (pool.words (p + 8))
  offset := (decodeBody (pool.words (p + 16))).1
  level := (decodeBody (pool.words (p + 16))).2.1
  isActive := (decodeBody (pool.words (p + 16))).2.2.1
  isAllocated := (decodeBody (pool.words (p + 16))).2.2.2

def slot (i : ℕ) : BuddyAllocBlock :=
  if i < pool.numOfElements.toNat then pool.blockAt (pool.address i) else .zero

end MemPool

/-- The allocator as its slots show it. -/
def BuddyAlloc.slots (b : BuddyAlloc) : FileTransfer.BuddyAlloc where
  addr := b.addr
  minBlockSize := b.minBlockSize
  numOfLevels := b.numOfLevels
  memPool := ⟨b.memPool.addr, b.memPool.elementsAddr, b.memPool.slot, b.memPool.numOfElements,
    b.memPool.sizeOfElement⟩
  freeList l := if l < b.numOfLevels then b.memPool.slotAt (b.freeList l) else none

namespace MemPool
variable {pool : MemPool} {v i : ℕ}

theorem address_lt (pool : MemPool) (i : ℕ) : pool.address i < pool.elementsArray.addr + 2 ^ 32 :=
  Nat.add_lt_add_left (UInt32.toNat_lt _) _

/-- A pointer to the start of a slot names a slot that starts there. -/
theorem exists_slotAt (hv : v ≠ 0) (hi : i < pool.numOfElements.toNat)
    (haddr : pool.address i = v) :
    ∃ k < pool.numOfElements.toNat, pool.address k = v ∧ pool.slotAt v = some k := by
  have hex : ∃ k, k < pool.numOfElements.toNat ∧ pool.address k = v := ⟨i, hi, haddr⟩
  refine ⟨Nat.find hex, (Nat.find_spec hex).1, (Nat.find_spec hex).2, ?_⟩
  rw [slotAt, if_neg hv, dif_pos hex]

theorem slotAt_eq_none (h : pool.slotAt v = none) : v = 0 := by
  unfold slotAt at h
  split at h
  · assumption
  · split at h <;> cases h

/-- A pointer that is not the start of a slot names none. -/
theorem slotAt_wild (hv : v ≠ 0) (h : ∀ i < pool.numOfElements.toNat, pool.address i ≠ v) :
    pool.slotAt v = some (pool.numOfElements.toNat + v) := by
  rw [slotAt, if_neg hv, dif_neg]
  rintro ⟨i, hi, haddr⟩
  exact h i hi haddr

end MemPool

theorem BuddyAlloc.next_slots (b : BuddyAlloc) {k : ℕ} (hk : k < b.memPool.numOfElements.toNat) :
    (b.slots.block k).next = b.memPool.slotAt (b.memPool.words (b.memPool.address k)) :=
  congrArg BuddyAllocBlock.next (if_pos hk)

/-! ### Slots that do not wrap -/

/-- Where the slots are in a pool of at most 27 levels. -/
structure Layout where
  elementsArray : Location
  slots : UInt32
  levels : ℕ
  fits : slots.toNat * 24 ≤ 2 ^ 32

namespace Layout
variable (A : Layout)

def address (i : ℕ) : ℕ := A.elementsArray.addr + i * 24

def Pointer (v : ℕ) : Option ℕ → Prop
  | none => v = 0
  | some i => i < A.slots.toNat ∧ v = A.address i

/-- The same for a pointer that may be missing. -/
def OptionPointer : Option ℕ → Option ℕ → Prop
  | none, none => True
  | some v, some i => A.Pointer v (some i)
  | _, _ => False

/-- The words of slot `i` hold the block. -/
structure Holds (words : ℕ → ℕ) (i : ℕ) (blk : BuddyAllocBlock) : Prop where
  next : A.Pointer (words (A.address i)) blk.next
  prev : A.Pointer (words (A.address i + 8)) blk.prev
  body : decodeBody (words (A.address i + 16)) = blk.body
  level_lt : blk.level < A.levels

variable {A} {v i j : ℕ} {q : Option ℕ}

theorem address_ne_zero : A.address i ≠ 0 := by
  have := A.elementsArray.ne_null
  unfold address
  omega

theorem address_inj (h : A.address i = A.address j) : i = j := by
  unfold address at h
  omega

theorem Pointer.eq_zero_iff (h : A.Pointer v q) : v = 0 ↔ q = none := by
  cases q with
  | none => exact iff_of_true h rfl
  | some i => exact iff_of_false (h.2 ▸ address_ne_zero) (Option.some_ne_none i)

theorem Pointer.null : A.Pointer 0 none := rfl

theorem Pointer.slot (hi : i < A.slots.toNat) : A.Pointer (A.address i) (some i) := ⟨hi, rfl⟩

end Layout

/-- What no operation changes. -/
def BuddyAlloc.frame (b : BuddyAlloc) : ℕ × UInt32 × ℕ × ℕ × Option ℕ × UInt32 × UInt32 :=
  (b.addr, b.minBlockSize, b.numOfLevels, b.memPool.addr, b.memPool.elementsAddr,
    b.memPool.numOfElements, b.memPool.sizeOfElement)

def frameOfSlots (c : FileTransfer.BuddyAlloc) : ℕ × UInt32 × ℕ × ℕ × Option ℕ × UInt32 × UInt32 :=
  (c.addr, c.minBlockSize, c.numOfLevels, c.memPool.addr, c.memPool.elementsAddr,
    c.memPool.numOfElements, c.memPool.sizeOfElement)

/-- The words of `b`, in the slots of the layout, hold the blocks of `c`. -/
structure Encodes (A : Layout) (b : BuddyAlloc) (c : FileTransfer.BuddyAlloc) : Prop where
  frame : b.frame = frameOfSlots c
  sizes : b.memPool.elementsArray = A.elementsArray ∧ b.memPool.numOfElements = A.slots ∧
    b.memPool.sizeOfElement = sizeofBuddyAllocBlock ∧ b.numOfLevels = A.levels
  block : ∀ i < A.slots.toNat, A.Holds b.memPool.words i (c.block i)
  block_zero : ∀ i, A.slots.toNat ≤ i → c.block i = .zero
  head : ∀ l < A.levels, A.Pointer (b.freeList l) (c.freeList l)
  head_none : ∀ l, A.levels ≤ l → c.freeList l = none

namespace Encodes
variable {A : Layout} {b : BuddyAlloc} {c : FileTransfer.BuddyAlloc} {i : ℕ}

theorem minBlockSize (h : Encodes A b c) : b.minBlockSize = c.minBlockSize :=
  congrArg (·.2.1) h.frame

theorem numOfLevels (h : Encodes A b c) : b.numOfLevels = c.numOfLevels :=
  congrArg (·.2.2.1) h.frame

theorem numOfElements (h : Encodes A b c) : c.memPool.numOfElements = A.slots :=
  (congrArg (·.2.2.2.2.2.1) h.frame).symm.trans h.sizes.2.1

theorem levels (h : Encodes A b c) : c.numOfLevels = A.levels :=
  h.numOfLevels.symm.trans h.sizes.2.2.2

/-- The displacement of a slot does not wrap. -/
theorem address_eq (h : Encodes A b c) (hi : i < A.slots.toNat) :
    b.memPool.address i = A.address i := by
  obtain ⟨hbase, -, hsize, -⟩ := h.sizes
  have hfits := A.fits
  have hword : (UInt32.ofNat i).toNat = i := UInt32.toNat_ofNat_of_lt' (hi.trans A.slots.toNat_lt)
  have hmul : (UInt32.ofNat i * sizeofBuddyAllocBlock).toNat = i * 24 := by
    rw [UInt32.toNat_mul, hword, show sizeofBuddyAllocBlock.toNat = 24 from rfl]
    exact Nat.mod_eq_of_lt (by omega)
  rw [MemPool.address, Layout.address, hbase, hsize, hmul]

/-- The words of a slot are words of the array. -/
theorem holds (h : Encodes A b c) (hi : i < A.slots.toNat) {k : ℕ} (hk : k < 24) (h8 : 8 ∣ k) :
    b.memPool.Holds (A.address i + k) := by
  obtain ⟨hbase, hslots, hsize, -⟩ := h.sizes
  have haligned := A.elementsArray.aligned
  rw [MemPool.Holds, hbase, hslots, hsize, show sizeofBuddyAllocBlock.toNat = 24 from rfl,
    Layout.address]
  omega

theorem load_run (h : Encodes A b c) (hi : i < A.slots.toNat) {k : ℕ} (hk : k < 24) (h8 : 8 ∣ k) :
    (load (A.address i + k)).run b = .ok (b.memPool.words (A.address i + k)) b := by
  rw [load, EStateM.run_bind, EStateM.run_get]
  dsimp only
  rw [if_pos (h.holds hi hk h8)]
  rfl

/-- A store in a slot changes the block of that slot. -/
theorem store_run (h : Encodes A b c) (hi : i < A.slots.toNat) {k v : ℕ} (hk : k < 24) (h8 : 8 ∣ k)
    {blk : BuddyAllocBlock}
    (hblk : A.Holds (fun p => if p = A.address i + k then v else b.memPool.words p) i blk) :
    ∃ b', (store (A.address i + k) v).run b = .ok () b' ∧ Encodes A b' (c.setBlock i blk) := by
  refine ⟨b.setWord (A.address i + k) v, ?_, h.frame, h.sizes, ?_, ?_, h.head, h.head_none⟩
  · rw [store, EStateM.run_bind, EStateM.run_get]
    dsimp only
    rw [if_pos (h.holds hi hk h8)]
    rfl
  · intro j hj
    by_cases hji : j = i
    · subst hji
      rwa [FileTransfer.BuddyAlloc.block_setBlock_self]
    · have hother : ∀ m < 24, (b.setWord (A.address i + k) v).memPool.words (A.address j + m) =
          b.memPool.words (A.address j + m) := by
        intro m hm
        apply if_neg
        unfold Layout.address
        omega
      obtain ⟨hnext, hprev, hbody, hlevel⟩ := h.block j hj
      rw [FileTransfer.BuddyAlloc.block_setBlock_of_ne _ _ _ hji]
      have hfirst := hother 0 (by omega)
      rw [Nat.add_zero] at hfirst
      constructor
      · rwa [hfirst]
      · rwa [hother 8 (by omega)]
      · rwa [hother 16 (by omega)]
      · exact hlevel
  · intro j hj
    rw [FileTransfer.BuddyAlloc.block_setBlock_of_ne _ _ _ (by omega)]
    exact h.block_zero j hj

/-! ### The view -/

theorem slotAt_eq (h : Encodes A b c) {v : ℕ} {q : Option ℕ} (hv : A.Pointer v q) :
    b.memPool.slotAt v = q := by
  have hslots : b.memPool.numOfElements = A.slots := h.sizes.2.1
  cases q with
  | none =>
    obtain rfl : v = 0 := hv
    rfl
  | some i =>
    obtain ⟨hi, rfl⟩ := hv
    have hex : ∃ j, j < b.memPool.numOfElements.toNat ∧ b.memPool.address j = A.address i := by
      rw [hslots]
      exact ⟨i, hi, h.address_eq hi⟩
    rw [MemPool.slotAt, if_neg Layout.address_ne_zero, dif_pos hex]
    obtain ⟨hlt, haddr⟩ := Nat.find_spec hex
    rw [h.address_eq (hlt.trans_eq (congrArg UInt32.toNat hslots))] at haddr
    exact congrArg some (Layout.address_inj haddr)

theorem slot_eq (h : Encodes A b c) (i : ℕ) : b.memPool.slot i = c.block i := by
  rw [MemPool.slot, h.sizes.2.1]
  by_cases hi : i < A.slots.toNat
  · obtain ⟨hnext, hprev, hbody, -⟩ := h.block i hi
    rw [if_pos hi, MemPool.blockAt, h.address_eq hi, h.slotAt_eq hnext, h.slotAt_eq hprev, hbody]
    rfl
  · rw [if_neg hi, h.block_zero i (Nat.not_lt.mp hi)]

/-- The view gives back the allocator that the words hold. -/
theorem slots_eq (h : Encodes A b c) : b.slots = c := by
  have hheads : (fun l => if l < b.numOfLevels then b.memPool.slotAt (b.freeList l) else none) =
      c.freeList := by
    funext l
    rw [h.sizes.2.2.2]
    by_cases hl : l < A.levels
    · rw [if_pos hl, h.slotAt_eq (h.head l hl)]
    · rw [if_neg hl, h.head_none l (Nat.not_lt.mp hl)]
  have hblocks : b.memPool.slot = c.memPool.elements := funext h.slot_eq
  obtain ⟨addr, minb, levels, ⟨pool, elements, blocks, count, size⟩, heads⟩ := c
  have hframe := h.frame
  simp only [BuddyAlloc.frame, frameOfSlots, Prod.mk.injEq] at hframe
  obtain ⟨haddr, hmin, hlevels, hpool, helements, hcount, hsize⟩ := hframe
  dsimp only at hheads hblocks
  unfold BuddyAlloc.slots
  rw [hheads, hblocks, haddr, hmin, hlevels, hpool, helements, hcount, hsize]

/-- Two pools of one layout name their slots alike. -/
theorem slotAt_congr (h : Encodes A b c) {b' : BuddyAlloc} {c' : FileTransfer.BuddyAlloc}
    (h' : Encodes A b' c') : b.memPool.slotAt = b'.memPool.slotAt := by
  obtain ⟨hbase, hslots, hsize, -⟩ := h.sizes
  obtain ⟨hbase', hslots', hsize', -⟩ := h'.sizes
  unfold MemPool.slotAt MemPool.address
  rw [hbase, hslots, hsize, hbase', hslots', hsize']

theorem slot_congr (h : Encodes A b c) {b' : BuddyAlloc} {c' : FileTransfer.BuddyAlloc}
    (h' : Encodes A b' c') (hwords : b.memPool.words = b'.memPool.words) :
    b.memPool.slot = b'.memPool.slot := by
  have hnames := h.slotAt_congr h'
  obtain ⟨hbase, hslots, hsize, -⟩ := h.sizes
  obtain ⟨hbase', hslots', hsize', -⟩ := h'.sizes
  unfold MemPool.slot MemPool.blockAt MemPool.address
  rw [hnames, hwords, hbase, hslots, hsize, hbase', hslots', hsize']

/-! ### Reading and writing a block -/

theorem getNext_run (h : Encodes A b c) (hi : i < A.slots.toNat) :
    ∃ v, (getNext (A.address i)).run b = .ok v b ∧ A.Pointer v (c.block i).next :=
  ⟨_, h.load_run (k := 0) hi (by omega) (by omega), (h.block i hi).next⟩

theorem getPrev_run (h : Encodes A b c) (hi : i < A.slots.toNat) :
    ∃ v, (getPrev (A.address i)).run b = .ok v b ∧ A.Pointer v (c.block i).prev :=
  ⟨_, h.load_run (k := 8) hi (by omega) (by omega), (h.block i hi).prev⟩

theorem getField_run (h : Encodes A b c) (hi : i < A.slots.toNat) (f : BitField) :
    (getField f (A.address i)).run b =
      .ok (f.get (b.memPool.words (A.address i + 16))) b := by
  rw [getField, EStateM.run_bind, h.load_run hi (by omega) (by omega)]
  rfl

theorem getOffset_run (h : Encodes A b c) (hi : i < A.slots.toNat) :
    (getOffset (A.address i)).run b = .ok (c.block i).offset b := by
  have hbody := congrArg (·.1) (h.block i hi).body
  rw [getOffset, EStateM.run_bind, h.getField_run hi]
  exact congrArg (EStateM.Result.ok · b) hbody

theorem getLevel_run (h : Encodes A b c) (hi : i < A.slots.toNat) :
    (getLevel (A.address i)).run b = .ok (c.block i).level b := by
  have hbody := congrArg (·.2.1) (h.block i hi).body
  rw [getLevel, h.getField_run hi]
  exact congrArg (EStateM.Result.ok · b) hbody

theorem getActive_run (h : Encodes A b c) (hi : i < A.slots.toNat) :
    (getActive (A.address i)).run b = .ok (c.block i).isActive b := by
  have hbody := congrArg (·.2.2.1) (h.block i hi).body
  rw [getActive, EStateM.run_bind, h.getField_run hi]
  exact congrArg (EStateM.Result.ok · b) hbody

theorem getAllocated_run (h : Encodes A b c) (hi : i < A.slots.toNat) :
    (getAllocated (A.address i)).run b = .ok (c.block i).isAllocated b := by
  have hbody := congrArg (·.2.2.2) (h.block i hi).body
  rw [getAllocated, EStateM.run_bind, h.getField_run hi]
  exact congrArg (EStateM.Result.ok · b) hbody

theorem setNext_run (h : Encodes A b c) (hi : i < A.slots.toNat) {v : ℕ} {q : Option ℕ}
    (hv : A.Pointer v q) :
    ∃ b', (setNext (A.address i) v).run b = .ok () b' ∧ Encodes A b' (c.setNext i q) := by
  obtain ⟨-, hprev, hbody, hlevel⟩ := h.block i hi
  refine h.store_run (k := 0) hi (by omega) (by omega) ⟨?_, ?_, ?_, hlevel⟩
  · rwa [if_pos (Nat.add_zero _).symm]
  · rwa [if_neg (by omega)]
  · rwa [if_neg (by omega)]

theorem setPrev_run (h : Encodes A b c) (hi : i < A.slots.toNat) {v : ℕ} {q : Option ℕ}
    (hv : A.Pointer v q) :
    ∃ b', (setPrev (A.address i) v).run b = .ok () b' ∧ Encodes A b' (c.setPrev i q) := by
  obtain ⟨hnext, -, hbody, hlevel⟩ := h.block i hi
  refine h.store_run (k := 8) hi (by omega) (by omega) ⟨?_, ?_, ?_, hlevel⟩
  · rwa [if_neg (by omega)]
  · rwa [if_pos rfl]
  · rwa [if_neg (by omega)]

/-- A store in the third word changes what that word says, and not the links. -/
theorem setField_run (h : Encodes A b c) (hi : i < A.slots.toNat) {f : BitField} {v : ℕ}
    {blk : BuddyAllocBlock} (hnext : blk.next = (c.block i).next)
    (hprev : blk.prev = (c.block i).prev) (hlevel : blk.level < A.levels)
    (hbody : ∀ w, decodeBody w = (c.block i).body → decodeBody (f.set w v) = blk.body) :
    ∃ b', (setField f (A.address i) v).run b = .ok () b' ∧ Encodes A b' (c.setBlock i blk) := by
  obtain ⟨hnext', hprev', hbody', -⟩ := h.block i hi
  rw [setField, EStateM.run_bind, h.load_run hi (by omega) (by omega)]
  refine h.store_run hi (by omega) (by omega) ⟨?_, ?_, ?_, hlevel⟩
  · rwa [if_neg (by omega), hnext]
  · rwa [if_neg (by omega), hprev]
  · rw [if_pos rfl]
    exact hbody _ hbody'

theorem setActive_run (h : Encodes A b c) (hi : i < A.slots.toNat) (flag : Bool) :
    ∃ b', (setActive (A.address i) flag).run b = .ok () b' ∧ Encodes A b' (c.setActive i flag) := by
  refine h.setField_run hi rfl rfl (h.block i hi).level_lt fun w hw => ?_
  rw [decodeBody_setActive, hw]
  rfl

theorem setAllocated_run (h : Encodes A b c) (hi : i < A.slots.toNat) (flag : Bool) :
    ∃ b', (setAllocated (A.address i) flag).run b = .ok () b' ∧
      Encodes A b' (c.setAllocated i flag) := by
  refine h.setField_run hi rfl rfl (h.block i hi).level_lt fun w hw => ?_
  rw [decodeBody_setAllocated, hw]
  rfl

theorem setOffset_run (h : Encodes A b c) (hi : i < A.slots.toNat) (offset : UInt32) :
    ∃ b', (setOffset (A.address i) offset).run b = .ok () b' ∧
      Encodes A b' (c.setBlock i { c.block i with offset }) := by
  refine h.setField_run hi rfl rfl (h.block i hi).level_lt fun w hw => ?_
  rw [decodeBody_setOffset, hw]
  rfl

theorem setLevel_run (h : Encodes A b c) (hi : i < A.slots.toNat) {level : ℕ}
    (hl : level < A.levels) :
    ∃ b', (setLevel (A.address i) level).run b = .ok () b' ∧
      Encodes A b' (c.setBlock i { c.block i with level := level % 64 }) := by
  refine h.setField_run hi rfl rfl ((Nat.mod_le _ _).trans_lt hl) fun w hw => ?_
  rw [decodeBody_setLevel, hw]
  rfl

/-! ### The heads of the lists and the slots of the pool -/

theorem getHead_run (h : Encodes A b c) {l : ℕ} (hl : l < A.levels) :
    ∃ v, (getHead l).run b = .ok v b ∧ A.Pointer v (c.freeList l) := by
  refine ⟨b.freeList l, ?_, h.head l hl⟩
  rw [getHead, EStateM.run_bind, EStateM.run_get]
  dsimp only
  rw [h.sizes.2.2.2, if_pos hl]
  rfl

theorem setHead_run (h : Encodes A b c) {l v : ℕ} {q : Option ℕ} (hl : l < A.levels)
    (hv : A.Pointer v q) :
    ∃ b', (setHead l v).run b = .ok () b' ∧ Encodes A b' (c.setHead l q) := by
  refine ⟨b.setHead l v, ?_, h.frame, h.sizes, h.block, h.block_zero, fun k hk => ?_,
    fun k hk => ?_⟩
  · rw [setHead, EStateM.run_bind, EStateM.run_get]
    dsimp only
    rw [h.sizes.2.2.2, if_pos hl]
    rfl
  · dsimp only [BuddyAlloc.setHead, FileTransfer.BuddyAlloc.setHead]
    rw [Function.update_apply]
    by_cases hkl : k = l
    · rwa [if_pos hkl, if_pos hkl]
    · rw [if_neg hkl, if_neg hkl]
      exact h.head k hk
  · have hkl : k ≠ l := (hl.trans_le hk).ne'
    dsimp only [FileTransfer.BuddyAlloc.setHead]
    rw [Function.update_of_ne hkl]
    exact h.head_none k hk

theorem memPoolGetBlock_run (h : Encodes A b c) (slot : UInt32) :
    (memPoolGetBlock slot).run b = match FileTransfer.memPoolGetBlock c.memPool slot with
      | .error e => .error e b
      | .ok i => .ok (A.address i) b := by
  obtain ⟨hbase, hslots, -, -⟩ := h.sizes
  rw [memPoolGetBlock, FileTransfer.memPoolGetBlock, h.numOfElements, EStateM.run_bind,
    EStateM.run_get]
  dsimp only
  rw [hslots]
  by_cases hle : A.slots ≤ slot
  · rw [if_pos hle, if_pos hle]
    rfl
  · have hlt : slot.toNat < A.slots.toNat := by
      rwa [UInt32.le_iff_toNat_le, not_le] at hle
    have haddr := h.address_eq hlt
    rw [MemPool.address, UInt32.ofNat_toNat] at haddr
    rw [if_neg hle, if_neg hle]
    exact congrArg (EStateM.Result.ok · b) haddr

end Encodes

end FileTransfer.PoolMemory
