import FileTransfer.BuddyAllocator.Create

/-! Where the slots of the pool lie in memory. The blocks are an array of elements of equal
size, and the displacement of an element is a product of two 32-bit words. -/
namespace FileTransfer
open Bisection

/-- What `mem_pool_get_block` adds to the address of the array. -/
def memPoolDisplacement (pool : MemPool) (slotIndex : UInt32) : UInt32 :=
  slotIndex * pool.sizeOfElement

/-- The alignment of `struct buddy_alloc_block` on LP64. -/
def alignofBuddyAllocBlock : ℕ := 8

/-- The slots lie one after another in the array, aligned and without overlap. -/
structure SlotsApart (pool : MemPool) : Prop where
  exact : ∀ slot p, memPoolGetBlock pool slot = .ok p →
    (memPoolDisplacement pool slot).toNat = p * pool.sizeOfElement.toNat
  apart : ∀ i j, i < pool.numOfElements → j < pool.numOfElements → i ≠ j →
    (memPoolDisplacement pool i).toNat + pool.sizeOfElement.toNat ≤
        (memPoolDisplacement pool j).toNat ∨
      (memPoolDisplacement pool j).toNat + pool.sizeOfElement.toNat ≤
        (memPoolDisplacement pool i).toNat
  inside : ∀ i < pool.numOfElements,
    (memPoolDisplacement pool i).toNat + pool.sizeOfElement.toNat ≤
      pool.numOfElements.toNat * pool.sizeOfElement.toNat
  aligned : ∀ i < pool.numOfElements, alignofBuddyAllocBlock ∣ (memPoolDisplacement pool i).toNat

section Pool
variable {pool : MemPool} {i j : UInt32}

theorem memPoolGetBlock_eq_ok {p : ℕ} :
    memPoolGetBlock pool i = .ok p ↔ i < pool.numOfElements ∧ i.toNat = p := by
  unfold memPoolGetBlock
  by_cases hi : pool.numOfElements ≤ i
  · rw [if_pos hi]
    constructor
    · intro h
      cases h
    · intro h
      exact absurd hi (UInt32.not_le.mpr h.1)
  · rw [if_neg hi, Except.ok.injEq, iff_and_self]
    intro _
    exact UInt32.not_le.mp hi

theorem displacement_eq (h : i.toNat * pool.sizeOfElement.toNat < 2 ^ 32) :
    (memPoolDisplacement pool i).toNat = i.toNat * pool.sizeOfElement.toNat := by
  rw [memPoolDisplacement, UInt32.toNat_mul, Nat.mod_eq_of_lt h]

/-- Elements follow each other in the order of their indices. -/
theorem element_before {a b size : ℕ} (h : a < b) : a * size + size ≤ b * size := by
  rw [← Nat.succ_mul]
  exact Nat.mul_le_mul_right size h

/-- Only the displacement of the last slot matters. -/
theorem slotsApart_iff (hpos : 0 < pool.numOfElements)
    (hsize : alignofBuddyAllocBlock ∣ pool.sizeOfElement.toNat) :
    SlotsApart pool ↔ (pool.numOfElements.toNat - 1) * pool.sizeOfElement.toNat < 2 ^ 32 := by
  have hn : 0 < pool.numOfElements.toNat := UInt32.lt_iff_toNat_lt.mp hpos
  constructor
  · intro h
    have hlast : (pool.numOfElements - 1).toNat = pool.numOfElements.toNat - 1 := by
      rw [UInt32.toNat_sub_of_le]
      · rfl
      · exact UInt32.le_iff_toNat_le.mpr hn
    have hget : memPoolGetBlock pool (pool.numOfElements - 1) =
        .ok (pool.numOfElements.toNat - 1) := by
      rw [memPoolGetBlock_eq_ok, UInt32.lt_iff_toNat_lt, hlast]
      exact ⟨Nat.sub_lt hn one_pos, rfl⟩
    rw [← h.exact _ _ hget]
    exact UInt32.toNat_lt _
  · intro h
    have hdisp : ∀ i < pool.numOfElements,
        (memPoolDisplacement pool i).toNat = i.toNat * pool.sizeOfElement.toNat := by
      intro i hi
      rw [UInt32.lt_iff_toNat_lt] at hi
      exact displacement_eq ((Nat.mul_le_mul_right _ (Nat.le_sub_one_of_lt hi)).trans_lt h)
    constructor
    · intro slot p hget
      obtain ⟨hi, rfl⟩ := memPoolGetBlock_eq_ok.mp hget
      exact hdisp slot hi
    · intro i j hi hj hne
      rw [hdisp i hi, hdisp j hj]
      rcases Nat.lt_or_gt_of_ne (fun he => hne (UInt32.toNat_inj.mp he)) with hlt | hlt
      · exact Or.inl (element_before hlt)
      · exact Or.inr (element_before hlt)
    · intro i hi
      rw [hdisp i hi]
      exact element_before (UInt32.lt_iff_toNat_lt.mp hi)
    · intro i hi
      rw [hdisp i hi]
      exact hsize.mul_left _

end Pool

/-! ### The pool of an accepted configuration -/

theorem buddyAllocCreate_pool {cfg : BuddyAllocCfg} {heap heap' : Heap} {b : BuddyAlloc}
    (h : (buddyAllocCreate cfg).run heap = .ok b heap') :
    b.memPool.sizeOfElement = sizeofBuddyAllocBlock := by
  obtain ⟨S, -, -, hadd⟩ := buddyAllocCreate_zeroed h
  have hplace := addWholePool_placement S.total (S.zeroed heap.requests)
  rw [hadd] at hplace
  exact congrArg (·.2.2.2) hplace

theorem slots_last_lt_iff (S : Shape) :
    (S.slots - 1) * sizeofBuddyAllocBlock.toNat < 2 ^ 32 ↔ S.top ≤ 26 + S.bottom := by
  have hbottom := S.bottom_le
  have hdepth : S.levels = S.top - S.bottom + 1 := rfl
  have hsize : sizeofBuddyAllocBlock.toNat = 24 := rfl
  rw [hsize, Shape.slots]
  constructor
  · intro h
    by_contra hlt
    have hpow : 2 ^ 28 ≤ 2 ^ S.levels := Nat.pow_le_pow_right (by omega) (by omega)
    omega
  · intro h
    have hpow : 2 ^ S.levels ≤ 2 ^ 27 := Nat.pow_le_pow_right (by omega) (by omega)
    omega

/-- The slots are apart in a pool of at most `2 ^ 26` smallest blocks, and in no larger one. -/
theorem slots_apart_iff {cfg : BuddyAllocCfg} {heap heap' : Heap} {b : BuddyAlloc}
    (hc : (buddyAllocCreate cfg).run heap = .ok b heap') :
    SlotsApart b.memPool ↔ cfg.totalMemPoolSize.toNat ≤ 2 ^ 26 * cfg.minBlockSize.toNat := by
  obtain ⟨S, ht, hm, hmade⟩ := buddyAllocCreate_ok hc
  have hcount := hmade.shows.numOfElements
  have hsize := buddyAllocCreate_pool hc
  have hpos : 0 < b.memPool.numOfElements := by
    rw [UInt32.lt_iff_toNat_lt, hcount]
    exact (Nat.zero_le _).trans_lt (Shape.slot_lt S.has_root)
  have htotal : cfg.totalMemPoolSize.toNat = 2 ^ S.top := by
    rw [ht, Shape.toNat_total]
  have hmin : cfg.minBlockSize.toNat = 2 ^ S.bottom := by
    rw [hm, Shape.toNat_minBlock]
  have halign : alignofBuddyAllocBlock ∣ b.memPool.sizeOfElement.toNat := by
    rw [hsize]
    decide
  rw [slotsApart_iff hpos halign, hcount, hsize, slots_last_lt_iff, htotal, hmin, ← pow_add,
    Nat.pow_le_pow_iff_right (by omega)]

theorem slots_apart_iff_kilobyte : ∃ b heap,
    (buddyAllocCreate ⟨1024, 512⟩).run ⟨fun _ => true, 0, []⟩ = .ok b heap ∧
      SlotsApart b.memPool := by
  obtain ⟨b, heap, hc⟩ : ∃ b heap,
      (buddyAllocCreate ⟨1024, 512⟩).run ⟨fun _ => true, 0, []⟩ = .ok b heap := ⟨_, _, rfl⟩
  exact ⟨b, heap, hc, (slots_apart_iff hc).mpr (by decide)⟩

/-- In a pool of `2 ^ 27` bytes, which may be taken one by one, two slots overlap. -/
theorem slots_overlap : ∃ b heap,
    (buddyAllocCreate ⟨134217728, 1⟩).run ⟨fun _ => true, 0, []⟩ = .ok b heap ∧
      178956971 < b.memPool.numOfElements ∧ 0 < b.memPool.numOfElements ∧
      memPoolDisplacement b.memPool 178956971 = 8 ∧ memPoolDisplacement b.memPool 0 = 0 ∧
      b.memPool.sizeOfElement = 24 ∧ ¬ SlotsApart b.memPool := by
  obtain ⟨b, heap, hc, hlt, hpos, hlast, hfirst, hsize⟩ : ∃ b heap,
      (buddyAllocCreate ⟨134217728, 1⟩).run ⟨fun _ => true, 0, []⟩ = .ok b heap ∧
        178956971 < b.memPool.numOfElements ∧ 0 < b.memPool.numOfElements ∧
        memPoolDisplacement b.memPool 178956971 = 8 ∧ memPoolDisplacement b.memPool 0 = 0 ∧
        b.memPool.sizeOfElement = 24 :=
    ⟨_, _, rfl, by decide +kernel, by decide +kernel, by decide +kernel, by decide +kernel, rfl⟩
  refine ⟨b, heap, hc, hlt, hpos, hlast, hfirst, hsize, ?_⟩
  intro h
  have hapart := h.apart 178956971 0 hlt hpos (by decide)
  rw [hlast, hfirst, hsize] at hapart
  revert hapart
  decide

end FileTransfer
