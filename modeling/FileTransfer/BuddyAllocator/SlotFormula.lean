import FileTransfer.BuddyAllocator.Create

/-! The formula of the slots: the blocks of the tree, level by level and from left to right,
stand in the slots of the pool in this order, and the halves of a block in a heap-ordered way. -/
namespace FileTransfer
open Bisection

/-- A pair of a level and an offset that stands for a block of the tree. -/
def IsBlock (total minBlockSize : UInt32) (numOfLevels l : ℕ) (o : UInt32) : Prop :=
  l < numOfLevels ∧ (getBlockSize l minBlockSize numOfLevels).toNat ∣ o.toNat ∧ o < total

/-- The slot that the code computes for such a pair. -/
def slotIn (minBlockSize : UInt32) (numOfLevels l : ℕ) (o : UInt32) : UInt32 :=
  calcBuddyAllocatorSlot o l (getBlockSize l minBlockSize numOfLevels)

/-- A block below the first level and its buddy: they are halves of one block, and stand in
the two slots below that of their parent. -/
structure Halves (total minBlockSize : UInt32) (numOfLevels l : ℕ) (o buddy : UInt32) : Prop where
  isBlock : IsBlock total minBlockSize numOfLevels l buddy
  ne : buddy ≠ o
  involutive : getBuddyOffset buddy (getBlockSize l minBlockSize numOfLevels) = o
  parent : IsBlock total minBlockSize numOfLevels (l - 1) (MIN o buddy)
  slots : ({(slotIn minBlockSize numOfLevels l o).toNat,
      (slotIn minBlockSize numOfLevels l buddy).toNat} : Set ℕ) =
    {2 * (slotIn minBlockSize numOfLevels (l - 1) (MIN o buddy)).toNat + 1,
      2 * (slotIn minBlockSize numOfLevels (l - 1) (MIN o buddy)).toNat + 2}

/-- The sizes and the slots are the exact ones, the slots are in bijection with the blocks,
and the halves of a block stand below it. -/
structure HeapOrdered (total minBlockSize : UInt32) (numOfLevels : ℕ) (numOfSlots : UInt32) :
    Prop where
  size_exact : ∀ l < numOfLevels, (getBlockSize l minBlockSize numOfLevels).toNat =
    minBlockSize.toNat * 2 ^ (numOfLevels - 1 - l)
  slot_exact : ∀ l o, IsBlock total minBlockSize numOfLevels l o →
    ((1 : UInt32) <<< UInt32.ofNat l).toNat = 2 ^ l ∧
    (slotIn minBlockSize numOfLevels l o).toNat =
      2 ^ l - 1 + o.toNat / (getBlockSize l minBlockSize numOfLevels).toNat
  nodes_exact : ∀ k, 0 < k → k ≤ numOfLevels →
    ∃ nodes, calcMaxNodes k = .ok nodes ∧ nodes.toNat = ∑ i ∈ Finset.range k, 2 ^ i
  bijective : Set.BijOn (fun q : ℕ × UInt32 => slotIn minBlockSize numOfLevels q.1 q.2)
    {q | IsBlock total minBlockSize numOfLevels q.1 q.2} {p | p < numOfSlots}
  halves : ∀ l o, IsBlock total minBlockSize numOfLevels l o → 0 < l →
    Halves total minBlockSize numOfLevels l o
      (getBuddyOffset o (getBlockSize l minBlockSize numOfLevels))

namespace Shape
variable {S : Shape} {n : Node}

theorem toNat_getBlockSize {l : ℕ} (hl : l ≤ S.depth) :
    (getBlockSize l S.minBlock S.levels).toNat = S.size l := by
  rw [getBlockSize_eq hl, Word.toNat_ofNat (S.size_lt l)]

theorem slotIn_eq (hn : S.Has n) :
    slotIn S.minBlock S.levels n.level (UInt32.ofNat (S.offset n)) = UInt32.ofNat (slotOf n) := by
  rw [slotIn, getBlockSize_eq hn.2, calcBuddyAllocatorSlot_eq hn]

theorem toNat_slotIn (hn : S.Has n) :
    (slotIn S.minBlock S.levels n.level (UInt32.ofNat (S.offset n))).toNat = slotOf n := by
  rw [slotIn_eq hn, Word.toNat_ofNat ((slot_lt hn).trans S.slots_lt)]

/-- The pairs that stand for a block are those of the nodes. -/
theorem isBlock_iff {l : ℕ} {o : UInt32} : IsBlock S.total S.minBlock S.levels l o ↔
    ∃ n, S.Has n ∧ n.level = l ∧ UInt32.ofNat (S.offset n) = o := by
  constructor
  · intro h
    obtain ⟨hl, hdvd, hlt⟩ := h
    have hl' : l ≤ S.depth := Nat.le_of_lt_succ hl
    rw [toNat_getBlockSize hl'] at hdvd
    rw [UInt32.lt_iff_toNat_lt, toNat_total] at hlt
    have hpool : 2 ^ S.top = 2 ^ l * S.size l := by
      rw [size, ← pow_add, Nat.add_sub_cancel' (hl'.trans (Nat.sub_le _ _))]
    have hroom : o.toNat + S.size l ≤ 2 ^ S.top := by
      obtain ⟨i, hi⟩ := hdvd
      rw [hi, hpool, mul_comm (2 ^ l)] at hlt
      have hi' : i + 1 ≤ 2 ^ l := Nat.lt_of_mul_lt_mul_left hlt
      calc o.toNat + S.size l = (i + 1) * S.size l := by rw [hi]; ring
        _ ≤ 2 ^ l * S.size l := Nat.mul_le_mul_right _ hi'
        _ = 2 ^ S.top := hpool.symm
    have hoff : S.offset (S.nodeOf l o.toNat) = o.toNat := offset_nodeOf hdvd
    refine ⟨S.nodeOf l o.toNat, has_nodeOf hl' hroom, rfl, ?_⟩
    rw [hoff, UInt32.ofNat_toNat]
  · rintro ⟨n, hn, rfl, rfl⟩
    have hoff := Word.toNat_ofNat (offset_lt hn)
    refine ⟨Nat.lt_succ_of_le hn.2, ?_, ?_⟩
    · rw [toNat_getBlockSize hn.2, hoff]
      exact Dvd.intro_left _ rfl
    · have hroom := offset_add_size_le hn
      have hpos := S.size_pos n.level
      rw [UInt32.lt_iff_toNat_lt, hoff, toNat_total]
      omega

theorem slotIn_bijOn : Set.BijOn (fun q : ℕ × UInt32 => slotIn S.minBlock S.levels q.1 q.2)
    {q | IsBlock S.total S.minBlock S.levels q.1 q.2} {p | p < UInt32.ofNat S.slots} := by
  have hmaps : Set.MapsTo (fun q : ℕ × UInt32 => slotIn S.minBlock S.levels q.1 q.2)
      {q | IsBlock S.total S.minBlock S.levels q.1 q.2} {p | p < UInt32.ofNat S.slots} := by
    rintro ⟨l, o⟩ hq
    obtain ⟨n, hn, rfl, rfl⟩ := isBlock_iff.mp hq
    change slotIn S.minBlock S.levels n.level (UInt32.ofNat (S.offset n)) < _
    rw [slotIn_eq hn, Word.ofNat_lt ((slot_lt hn).trans S.slots_lt) S.slots_lt]
    exact slot_lt hn
  have hinj : Set.InjOn (fun q : ℕ × UInt32 => slotIn S.minBlock S.levels q.1 q.2)
      {q | IsBlock S.total S.minBlock S.levels q.1 q.2} := by
    rintro ⟨l, o⟩ hq ⟨l', o'⟩ hq' heq
    obtain ⟨n, hn, rfl, rfl⟩ := isBlock_iff.mp hq
    obtain ⟨m, hm, rfl, rfl⟩ := isBlock_iff.mp hq'
    have hslot := congrArg UInt32.toNat heq
    rw [toNat_slotIn hn, toNat_slotIn hm] at hslot
    rw [slotOf_inj hn.1 hm.1 hslot]
  have hsurj : Set.SurjOn (fun q : ℕ × UInt32 => slotIn S.minBlock S.levels q.1 q.2)
      {q | IsBlock S.total S.minBlock S.levels q.1 q.2} {p | p < UInt32.ofNat S.slots} := by
    intro p hp
    have hlt : p.toNat < S.slots := by
      rw [← Word.toNat_ofNat S.slots_lt]
      exact hp
    have hn := has_nodeAt hlt
    refine ⟨((nodeAt p.toNat).level, UInt32.ofNat (S.offset (nodeAt p.toNat))),
      isBlock_iff.mpr ⟨_, hn, rfl, rfl⟩, ?_⟩
    rw [← UInt32.toNat_inj]
    exact (toNat_slotIn hn).trans (slotOf_nodeAt p.toNat).1
  exact ⟨hmaps, hinj, hsurj⟩

theorem buddy_ne (n : Node) : n.buddy ≠ n := by
  intro h
  have hi := congrArg Node.index h
  simp only [Node.buddy, Node.xor_one] at hi
  split at hi <;> omega

theorem halves (hn : S.Has n) (hl : 0 < n.level) :
    Halves S.total S.minBlock S.levels n.level (UInt32.ofNat (S.offset n))
      (UInt32.ofNat (S.offset n.buddy)) := by
  have hb := has_buddy hn hl
  have hp := has_parent hn
  have hmin := min_offset_eq hn hl
  have hslot := toNat_slotIn hn
  have hslot' := toNat_slotIn hb
  have hslot'' := toNat_slotIn hp
  rw [Node.level_buddy] at hslot'
  rw [Node.level_parent] at hslot''
  constructor
  · exact isBlock_iff.mpr ⟨n.buddy, hb, rfl, rfl⟩
  · rw [Ne, Word.ofNat_inj (offset_lt hb) (offset_lt hn)]
    intro ho
    exact buddy_ne n (eq_of_offset_eq rfl ho)
  · rw [getBlockSize_eq hn.2]
    have hback := getBuddyOffset_eq hb
    rwa [Node.buddy_buddy] at hback
  · rw [hmin]
    exact isBlock_iff.mpr ⟨n.parent, hp, rfl, rfl⟩
  · rw [hmin, hslot, hslot', hslot'']
    rcases Node.eq_left_or_right n hl with he | he
    · rw [he, Node.buddy_left, Node.parent_left, slotOf_left, slotOf_right]
    · rw [he, Node.buddy_right, Node.parent_right, slotOf_left, slotOf_right, Set.pair_comm]

theorem heapOrdered (S : Shape) :
    HeapOrdered S.total S.minBlock S.levels (UInt32.ofNat S.slots) := by
  constructor
  · intro l hl
    have hl' : l ≤ S.depth := Nat.le_of_lt_succ hl
    have hexp : S.top - l = S.bottom + (S.levels - 1 - l) := by
      have := S.bottom_le
      unfold levels depth at *
      omega
    rw [toNat_getBlockSize hl', toNat_minBlock, size, hexp, pow_add]
  · intro l o h
    obtain ⟨n, hn, rfl, rfl⟩ := isBlock_iff.mp h
    have hlevel := level_lt hn
    have hone : (1 : UInt32) <<< UInt32.ofNat n.level = UInt32.ofNat (2 ^ n.level) := by
      have := Word.ofNat_shiftLeft (a := 1) hlevel (by rw [one_mul]; exact two_pow_lt hlevel)
      rwa [one_mul] at this
    constructor
    · rw [hone, Word.toNat_ofNat (two_pow_lt hlevel)]
    · rw [toNat_slotIn hn, toNat_getBlockSize hn.2, Word.toNat_ofNat (offset_lt hn), offset,
        Nat.mul_div_cancel _ (S.size_pos _)]
      rfl
  · intro k hpos hk
    have hk' : k ≤ 32 := hk.trans S.levels_le
    have hlt : 2 ^ k - 1 < 2 ^ 32 := by
      have hmono : 2 ^ k ≤ 2 ^ 32 := Nat.pow_le_pow_right (by omega) hk'
      have := Nat.one_le_two_pow (n := k)
      omega
    refine ⟨_, calcMaxNodes_two_pow hpos hk', ?_⟩
    rw [Word.toNat_ofNat hlt, Nat.geomSum_eq le_rfl, Nat.div_one]
  · exact slotIn_bijOn
  · intro l o h hl
    obtain ⟨n, hn, rfl, rfl⟩ := isBlock_iff.mp h
    rw [getBlockSize_eq hn.2, getBuddyOffset_eq hn]
    exact halves hn hl

end Shape

/-- The slots of an allocator that was created are the blocks of its tree in heap order. -/
theorem slots_heap_ordered {cfg : BuddyAllocCfg} {heap heap' : Heap} {b : BuddyAlloc}
    (hc : (buddyAllocCreate cfg).run heap = .ok b heap') :
    calcNumOfLevels cfg.totalMemPoolSize cfg.minBlockSize = .ok b.numOfLevels ∧
    calcMaxNodes b.numOfLevels = .ok b.memPool.numOfElements ∧
    HeapOrdered cfg.totalMemPoolSize cfg.minBlockSize b.numOfLevels b.memPool.numOfElements := by
  obtain ⟨S, ht, hm, hmade⟩ := buddyAllocCreate_ok hc
  have hheader := hmade.shows.header
  have hlevels : b.numOfLevels = S.levels := congrArg (·.2.1) hheader
  have hslots : b.memPool.numOfElements = UInt32.ofNat S.slots := congrArg (·.2.2) hheader
  rw [ht, hm, hlevels, hslots]
  exact ⟨S.calcNumOfLevels_eq, S.calcMaxNodes_eq, S.heapOrdered⟩

theorem slots_heap_ordered_halves : ∃ b heap,
    (buddyAllocCreate ⟨1024, 512⟩).run ⟨fun _ => true, 0, []⟩ = .ok b heap ∧
      HeapOrdered 1024 512 b.numOfLevels b.memPool.numOfElements := by
  obtain ⟨b, heap, hc⟩ : ∃ b heap,
      (buddyAllocCreate ⟨1024, 512⟩).run ⟨fun _ => true, 0, []⟩ = .ok b heap := ⟨_, _, rfl⟩
  exact ⟨b, heap, hc, (slots_heap_ordered hc).2.2⟩

end FileTransfer
