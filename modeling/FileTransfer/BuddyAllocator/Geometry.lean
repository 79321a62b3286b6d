import FileTransfer.Foundation.Bisection
import FileTransfer.Foundation.Word
import FileTransfer.BuddyAllocator.Levels

/-! The buddy tree of an accepted configuration: the offset, the size and the slot of each
of its nodes, and what the 32-bit arithmetic of the code makes of them. -/
namespace FileTransfer
open Bisection

/-- A pool of `2 ^ top` bytes with blocks of at least `2 ^ bottom` bytes. -/
structure Shape where
  top : ℕ
  bottom : ℕ
  bottom_le : bottom ≤ top
  top_lt : top < 32

/-- The place of a node when the nodes of the tree are numbered level by level. -/
def slotOf (n : Node) : ℕ := 2 ^ n.level - 1 + n.index

theorem slotOf_inj {n m : Node} (hn : n ≤ Node.root) (hm : m ≤ Node.root)
    (h : slotOf n = slotOf m) : n = m := by
  wlog hl : n.level ≤ m.level generalizing n m
  · exact (this hm hn h.symm (by omega)).symm
  have hni := Node.le_root_iff.mp hn
  have hmi := Node.le_root_iff.mp hm
  unfold slotOf at h
  have h1 := Nat.one_le_two_pow (n := n.level)
  have h2 := Nat.one_le_two_pow (n := m.level)
  rcases hl.lt_or_eq with hlt | heq
  · have hp := Nat.pow_le_pow_right (n := 2) (by omega) (show n.level + 1 ≤ m.level by omega)
    rw [pow_succ] at hp
    omega
  · rw [heq] at h
    exact Node.ext heq (by omega)

/-- The slots of the two halves of a block, as in a heap-ordered array. -/
theorem slotOf_left (n : Node) : slotOf n.left = 2 * slotOf n + 1 := by
  have := Nat.one_le_two_pow (n := n.level)
  simp only [slotOf, Node.left, pow_succ]
  omega

theorem slotOf_right (n : Node) : slotOf n.right = 2 * slotOf n + 2 := by
  have := Nat.one_le_two_pow (n := n.level)
  simp only [slotOf, Node.right, pow_succ]
  omega

/-- The node that stands in a slot. -/
def nodeAt (s : ℕ) : Node := ⟨(s + 1).log2, s + 1 - 2 ^ (s + 1).log2⟩

theorem slotOf_nodeAt (s : ℕ) : slotOf (nodeAt s) = s ∧ nodeAt s ≤ Node.root := by
  have hle : 2 ^ (s + 1).log2 ≤ s + 1 := Nat.log2_self_le (by omega)
  have hlt : s + 1 < 2 ^ ((s + 1).log2 + 1) := Nat.lt_log2_self
  have hpos := Nat.one_le_two_pow (n := (s + 1).log2)
  rw [pow_succ] at hlt
  constructor
  · simp only [slotOf, nodeAt]
    omega
  · rw [Node.le_root_iff]
    simp only [nodeAt]
    omega

theorem nodeAt_slotOf {n : Node} (h : n ≤ Node.root) : nodeAt (slotOf n) = n :=
  slotOf_inj (slotOf_nodeAt _).2 h (slotOf_nodeAt _).1

namespace Shape
variable (S : Shape)

/-- The number of the last level. -/
def depth : ℕ := S.top - S.bottom
def total : UInt32 := UInt32.ofNat (2 ^ S.top)
def minBlock : UInt32 := UInt32.ofNat (2 ^ S.bottom)
def levels : ℕ := S.depth + 1
def slots : ℕ := 2 ^ S.levels - 1

/-- The size of the blocks of a level, and the offset of a node, in bytes. -/
def size (level : ℕ) : ℕ := 2 ^ (S.top - level)
def offset (n : Node) : ℕ := n.index * S.size n.level

/-- The nodes of the tree. -/
def Has (n : Node) : Prop := n ≤ Node.root ∧ n.level ≤ S.depth

variable {S} {n : Node}

theorem level_le_top (h : S.Has n) : n.level ≤ S.top := h.2.trans (Nat.sub_le S.top S.bottom)

theorem level_lt (h : S.Has n) : n.level < 32 := (level_le_top h).trans_lt S.top_lt

theorem two_pow_lt {k : ℕ} (h : k < 32) : 2 ^ k < 2 ^ 32 := Nat.pow_lt_pow_right (by omega) h

theorem size_lt (level : ℕ) : S.size level < 2 ^ 32 :=
  two_pow_lt ((Nat.sub_le S.top level).trans_lt S.top_lt)

theorem size_pos (level : ℕ) : 0 < S.size level := Nat.two_pow_pos _

/-- A block has twice the size of its halves. -/
theorem size_eq_two_mul {level : ℕ} (h : level < S.top) : S.size level = S.size (level + 1) * 2 := by
  rw [size, size, ← pow_succ, show S.top - (level + 1) + 1 = S.top - level by omega]

theorem offset_add_size_le (h : S.Has n) : S.offset n + S.size n.level ≤ 2 ^ S.top := by
  have hi := Node.le_root_iff.mp h.1
  have hp : 2 ^ n.level * S.size n.level = 2 ^ S.top := by
    rw [size, ← pow_add, Nat.add_sub_cancel' (level_le_top h)]
  calc S.offset n + S.size n.level = (n.index + 1) * S.size n.level := by
        rw [offset, Nat.add_mul, one_mul]
    _ ≤ 2 ^ n.level * S.size n.level := Nat.mul_le_mul_right _ hi
    _ = 2 ^ S.top := hp

theorem offset_lt (h : S.Has n) : S.offset n < 2 ^ 32 := by
  have := offset_add_size_le h
  have := two_pow_lt S.top_lt
  have := S.size_pos n.level
  omega

theorem slot_lt (h : S.Has n) : slotOf n < S.slots := by
  have hi := Node.le_root_iff.mp h.1
  have hp : 2 ^ (n.level + 1) ≤ 2 ^ S.levels :=
    Nat.pow_le_pow_right (by omega) (Nat.succ_le_succ h.2)
  have := Nat.one_le_two_pow (n := n.level)
  rw [pow_succ] at hp
  unfold slotOf slots
  omega

theorem slots_lt : S.slots < 2 ^ 32 := by
  have hp : 2 ^ S.levels ≤ 2 ^ 32 :=
    Nat.pow_le_pow_right (by omega) (by have := S.top_lt; unfold levels depth; omega)
  have := Nat.one_le_two_pow (n := S.levels)
  unfold slots
  omega

theorem has_nodeAt {s : ℕ} (h : s < S.slots) : S.Has (nodeAt s) := by
  refine ⟨(slotOf_nodeAt s).2, ?_⟩
  have hlt : s + 1 < 2 ^ S.levels := by
    unfold slots at h
    omega
  have := (Nat.log2_lt (by omega)).mpr hlt
  simp only [nodeAt, levels] at this ⊢
  omega

theorem has_root : S.Has Node.root := ⟨le_rfl, S.depth.zero_le⟩

theorem has_of_le {m : Node} (h : S.Has n) (hm : m ≤ n) (hl : m.level ≤ S.depth) : S.Has m :=
  ⟨hm.trans h.1, hl⟩

theorem has_parent (h : S.Has n) : S.Has n.parent := by
  have hi := Node.le_root_iff.mp h.1
  refine ⟨Node.le_root_iff.mpr ?_, by rw [Node.level_parent]; exact (Nat.sub_le _ _).trans h.2⟩
  rcases Nat.eq_zero_or_pos n.level with hz | hpos
  · simp only [Node.parent, hz] at hi ⊢
    omega
  · obtain ⟨k, hk⟩ : ∃ k, n.level = k + 1 := ⟨n.level - 1, by omega⟩
    simp only [Node.parent, hk, Nat.add_sub_cancel]
    rw [hk, pow_succ] at hi
    omega

theorem has_left (h : S.Has n) (hl : n.level < S.depth) : S.Has n.left :=
  has_of_le h (Node.left_le n) hl

theorem has_right (h : S.Has n) (hl : n.level < S.depth) : S.Has n.right :=
  has_of_le h (Node.right_le n) hl

theorem has_buddy (h : S.Has n) (hl : 0 < n.level) : S.Has n.buddy := by
  have hp := has_parent h
  have hlevel : n.parent.level < S.depth := by
    have := h.2
    rw [Node.level_parent]
    omega
  rcases Node.eq_left_or_right n hl with he | he <;> rw [he]
  · rw [Node.buddy_left]
    exact has_right hp hlevel
  · rw [Node.buddy_right]
    exact has_left hp hlevel

theorem toNat_total : S.total.toNat = 2 ^ S.top := Word.toNat_ofNat (two_pow_lt S.top_lt)

theorem toNat_minBlock : S.minBlock.toNat = 2 ^ S.bottom :=
  Word.toNat_ofNat (two_pow_lt (S.bottom_le.trans_lt S.top_lt))

theorem eq_of_total_eq {S' : Shape} (ht : S.total = S'.total) (hm : S.minBlock = S'.minBlock) :
    S = S' := by
  have htop : S.top = S'.top := by
    have hpow := congrArg UInt32.toNat ht
    rw [toNat_total, toNat_total] at hpow
    exact Nat.pow_right_injective le_rfl hpow
  have hbottom : S.bottom = S'.bottom := by
    have hpow := congrArg UInt32.toNat hm
    rw [toNat_minBlock, toNat_minBlock] at hpow
    exact Nat.pow_right_injective le_rfl hpow
  cases S
  cases S'
  simp only at htop hbottom
  subst htop hbottom
  rfl

/-! ### Ranges of bytes -/

theorem size_eq_pow_mul {m : Node} (hn : S.Has n) (hl : m.level ≤ n.level) :
    S.size m.level = 2 ^ (n.level - m.level) * S.size n.level := by
  have := level_le_top hn
  rw [size, size, ← pow_add]
  congr 1
  omega

/-- A block lies inside one of a lower level when their ranges meet. -/
theorem le_iff_meet {m : Node} (hn : S.Has n) (hl : m.level ≤ n.level) :
    n ≤ m ↔ S.offset n < S.offset m + S.size m.level ∧
      S.offset m < S.offset n + S.size n.level := by
  have hsize := size_eq_pow_mul hn hl
  have hm : S.offset m = m.index * 2 ^ (n.level - m.level) * S.size n.level := by
    rw [offset, hsize, mul_assoc]
  have hpos := S.size_pos n.level
  rw [hm, hsize, offset, ← Nat.add_mul, ← Nat.succ_mul n.index,
    Nat.mul_lt_mul_right hpos, Nat.mul_lt_mul_right hpos, Node.le_def, and_iff_right hl,
    Nat.div_eq_iff (by positivity)]
  have := Nat.two_pow_pos (n.level - m.level)
  omega

theorem overlap_iff_meet {m : Node} (hn : S.Has n) (hm : S.Has m) :
    Node.Overlap n m ↔ S.offset n < S.offset m + S.size m.level ∧
      S.offset m < S.offset n + S.size n.level := by
  have hnested : ∀ {k k' : Node}, k'.level ≤ k.level → (Node.Overlap k k' ↔ k ≤ k') := by
    intro k k' hl
    refine ⟨fun h => ?_, Or.inl⟩
    rcases h with h | h
    · exact h
    · exact (Node.eq_of_le_of_level_le h hl).ge
  rcases le_total m.level n.level with hl | hl
  · rw [hnested hl, le_iff_meet hn hl]
  · rw [and_comm, ← le_iff_meet hm hl, ← hnested hl]
    exact or_comm

/-- The smallest block that contains a byte. -/
def leafAt (S : Shape) (x : ℕ) : Node := ⟨S.depth, x / 2 ^ S.bottom⟩

theorem leafAt_le_root {x : ℕ} (hx : x < 2 ^ S.top) : S.leafAt x ≤ Node.root := by
  have hexp : S.top = S.bottom + S.depth := (Nat.add_sub_cancel' S.bottom_le).symm
  rw [Node.le_root_iff, leafAt, Nat.div_lt_iff_lt_mul (Nat.two_pow_pos _), mul_comm, ← pow_add]
  rwa [← hexp]

theorem leafAt_le_iff {x : ℕ} (hn : S.Has n) :
    S.leafAt x ≤ n ↔ S.offset n ≤ x ∧ x < S.offset n + S.size n.level := by
  have hexp : 2 ^ S.bottom * 2 ^ (S.depth - n.level) = S.size n.level := by
    have := hn.2
    have := S.bottom_le
    rw [← pow_add, size]
    congr 1
    unfold depth at *
    omega
  have hpos := S.size_pos n.level
  rw [Node.le_def, leafAt, and_iff_right hn.2, Nat.div_div_eq_div_mul, hexp, Nat.div_eq_iff hpos,
    offset]
  omega

/-- The block of a level that starts at an offset. -/
def nodeOf (S : Shape) (level o : ℕ) : Node := ⟨level, o / S.size level⟩

theorem offset_nodeOf {level o : ℕ} (h : S.size level ∣ o) : S.offset (S.nodeOf level o) = o :=
  Nat.div_mul_cancel h

theorem has_nodeOf {level o : ℕ} (hl : level ≤ S.depth) (h : o + S.size level ≤ 2 ^ S.top) :
    S.Has (S.nodeOf level o) := by
  refine ⟨Node.le_root_iff.mpr ?_, hl⟩
  have hpos := S.size_pos level
  rw [nodeOf, Nat.div_lt_iff_lt_mul hpos, size, ← pow_add,
    Nat.add_sub_cancel' (hl.trans (Nat.sub_le _ _))]
  omega

/-- The first block of a deeper level starts where the block does. -/
theorem offset_firstLeaf {l : ℕ} (hl : n.level ≤ l) (htop : l ≤ S.top) :
    S.offset (Node.firstLeaf l n) = S.offset n := by
  have hsize : S.size n.level = 2 ^ (l - n.level) * S.size l := by
    rw [size, size, ← pow_add]
    congr 1
    omega
  simp only [offset, Node.firstLeaf, hsize, mul_assoc]

theorem eq_of_offset_eq {m : Node} (hl : n.level = m.level) (ho : S.offset n = S.offset m) :
    n = m := by
  rw [offset, offset, hl] at ho
  exact Node.ext hl (Nat.eq_of_mul_eq_mul_right (S.size_pos m.level) ho)

theorem offset_parent (h : S.Has n) (hl : 0 < n.level) :
    S.offset n.parent = S.offset n / S.size n.parent.level * S.size n.parent.level := by
  have hsize : S.size n.parent.level = S.size n.level * 2 := by
    have htop := level_le_top h
    have hlt : n.parent.level < S.top := by
      rw [Node.level_parent]
      omega
    rw [size_eq_two_mul hlt, Node.level_parent, Nat.sub_add_cancel hl]
  have hpos := S.size_pos n.level
  rw [offset, offset, hsize, mul_comm n.index, Nat.mul_div_mul_left _ _ hpos]
  rfl

/-! ### What the code computes -/

theorem getBlockSize_eq {level : ℕ} (h : level ≤ S.depth) :
    getBlockSize level S.minBlock S.levels = UInt32.ofNat (S.size level) := by
  have hb := S.bottom_le
  have ht := S.top_lt
  have hexp : S.bottom + (S.levels - 1 - level) = S.top - level := by
    unfold levels depth at *
    omega
  rw [getBlockSize, minBlock, Word.ofNat_shiftLeft (by unfold levels depth; omega)]
  · rw [← pow_add, hexp, size]
  · rw [← pow_add, hexp]
    exact S.size_lt level

theorem calcBuddyAllocatorSlot_eq (h : S.Has n) :
    calcBuddyAllocatorSlot (UInt32.ofNat (S.offset n)) n.level (UInt32.ofNat (S.size n.level)) =
      UInt32.ofNat (slotOf n) := by
  have hl := level_lt h
  have hdiv : S.offset n / S.size n.level = n.index := Nat.mul_div_cancel _ (S.size_pos _)
  have hpow : (1 : UInt32) <<< UInt32.ofNat n.level = UInt32.ofNat (2 ^ n.level) := by
    have := Word.ofNat_shiftLeft (a := 1) hl (by rw [one_mul]; exact two_pow_lt hl)
    rwa [one_mul] at this
  rw [calcBuddyAllocatorSlot, hpow, Word.ofNat_div (offset_lt h) (S.size_lt _), hdiv, slotOf,
    UInt32.ofNat_add]
  congr 1
  exact Word.ofNat_sub (two_pow_lt hl) Nat.one_le_two_pow

theorem offset_left (h : n.level < S.top) : S.offset n.left = S.offset n := by
  simp only [offset, Node.left, size_eq_two_mul h]
  ring

theorem offset_right (h : n.level < S.top) :
    S.offset n.right = S.offset n + S.size (n.level + 1) := by
  simp only [offset, Node.right, size_eq_two_mul h]
  ring

theorem offset_xor_size (n : Node) :
    S.offset n ^^^ S.size n.level = S.offset n.buddy := by
  simp only [offset, size, Node.buddy]
  rw [← Nat.shiftLeft_eq, ← Nat.shiftLeft_eq, Nat.shiftLeft_xor_distrib, Nat.one_shiftLeft]

theorem getBuddyOffset_eq (h : S.Has n) :
    getBuddyOffset (UInt32.ofNat (S.offset n)) (UInt32.ofNat (S.size n.level)) =
      UInt32.ofNat (S.offset n.buddy) := by
  rw [getBuddyOffset, Word.ofNat_xor (offset_lt h) (S.size_lt _), offset_xor_size]

/-- The merged block starts where the first of the two buddies does. -/
theorem min_offset_eq (h : S.Has n) (hl : 0 < n.level) :
    MIN (UInt32.ofNat (S.offset n)) (UInt32.ofNat (S.offset n.buddy)) =
      UInt32.ofNat (S.offset n.parent) := by
  have hb := has_buddy h hl
  have htop : n.parent.level < S.top := by
    have := level_le_top h
    rw [Node.level_parent]
    omega
  have hpos := S.size_pos (n.parent.level + 1)
  simp only [MIN, Word.ofNat_lt (offset_lt h) (offset_lt hb)]
  rcases Node.eq_left_or_right n hl with he | he
  · rw [he, Node.buddy_left, Node.parent_left, offset_left htop, offset_right htop,
      if_pos (by omega)]
  · rw [he, Node.buddy_right, Node.parent_right, offset_left htop, offset_right htop,
      if_neg (by omega)]

theorem size_shiftRight {level : ℕ} (h : level < S.top) :
    UInt32.ofNat (S.size level) >>> 1 = UInt32.ofNat (S.size (level + 1)) := by
  have := Word.ofNat_shiftRight (k := 1) (by omega) (S.size_lt level)
  rw [size_eq_two_mul h, pow_one, Nat.mul_div_cancel _ (by omega), ← size_eq_two_mul h] at this
  exact this

theorem size_shiftLeft {level : ℕ} (h : level < S.top) :
    UInt32.ofNat (S.size (level + 1)) <<< 1 = UInt32.ofNat (S.size level) := by
  have := Word.ofNat_shiftLeft (a := S.size (level + 1)) (k := 1) (by omega)
    (by rw [pow_one, ← size_eq_two_mul h]; exact S.size_lt _)
  rwa [pow_one, ← size_eq_two_mul h] at this

end Shape
end FileTransfer
