import FileTransfer.Foundation.BuddySystem
import FileTransfer.BuddyAllocator.Geometry
import FileTransfer.BuddyAllocator.Primitives

/-! The state of the code shows a pool of nodes, and the steps of the code are the steps of
the pool. -/
namespace FileTransfer
open Bisection Intrusive

/-- What `b` stores for the free, the used and the other nodes, and its free lists. -/
structure Shows (S : Shape) (b : BuddyAlloc) (a : Pool) : Prop where
  header : b.header = (S.minBlock, S.levels, UInt32.ofNat S.slots)
  free : ∀ n ∈ a.freeNodes,
    (b.block (slotOf n)).body = (UInt32.ofNat (S.offset n), n.level, true, false)
  used : ∀ n ∈ a.used,
    (b.block (slotOf n)).body = (UInt32.ofNat (S.offset n), n.level, true, true)
  vacant : ∀ n, S.Has n → n ∉ a.freeNodes → n ∉ a.used → (b.block (slotOf n)).isActive = false
  lists : IsFamily b.links b.freeList fun l => (a.free l).map slotOf

section Header
variable {S : Shape} {b : BuddyAlloc} (h : b.header = (S.minBlock, S.levels, UInt32.ofNat S.slots))

include h in
theorem numOfElements_of_header : b.memPool.numOfElements.toNat = S.slots := by
  rw [show b.memPool.numOfElements = UInt32.ofNat S.slots from congrArg (·.2.2) h,
    Word.toNat_ofNat Shape.slots_lt]

include h in
theorem slot_lt_of_header {n : Node} (hn : S.Has n) :
    slotOf n < b.memPool.numOfElements.toNat := by
  rw [numOfElements_of_header h]
  exact Shape.slot_lt hn

end Header

theorem Inv_has {S : Shape} {hole : Set Node} {a : Pool} {n : Node} (hi : a.Inv S.depth hole)
    (hn : n ∈ a.freeNodes ∨ n ∈ a.used) : S.Has n := by
  have hmem : n ∈ hole ∪ (a.freeNodes ∪ a.used) := Or.inr hn
  exact ⟨hi.tiles.le_root n hmem, hi.tiles.level_le n hmem⟩

namespace Shows
variable {S : Shape} {b : BuddyAlloc} {a : Pool} {hole : Set Node} {n : Node}

theorem minBlockSize (h : Shows S b a) : b.minBlockSize = S.minBlock := congrArg (·.1) h.header
theorem numOfLevels (h : Shows S b a) : b.numOfLevels = S.levels := congrArg (·.2.1) h.header
theorem numOfElements (h : Shows S b a) : b.memPool.numOfElements.toNat = S.slots :=
  numOfElements_of_header h.header

/-- A step of the code that touches the block of one node only. -/
theorem change (h : Shows S b a) (hi : a.Inv S.depth hole) {a' : Pool} {b' : BuddyAlloc}
    (hn : S.Has n) (hheader : b'.header = b.header)
    (hbody : ∀ q, q ≠ slotOf n → (b'.block q).body = (b.block q).body)
    (hfree : ∀ m, m ≠ n → (m ∈ a'.freeNodes ↔ m ∈ a.freeNodes))
    (hused : ∀ m, m ≠ n → (m ∈ a'.used ↔ m ∈ a.used))
    (hfree' : n ∈ a'.freeNodes →
      (b'.block (slotOf n)).body = (UInt32.ofNat (S.offset n), n.level, true, false))
    (hused' : n ∈ a'.used →
      (b'.block (slotOf n)).body = (UInt32.ofNat (S.offset n), n.level, true, true))
    (hvacant' : n ∉ a'.freeNodes → n ∉ a'.used → (b'.block (slotOf n)).isActive = false)
    (hlists : IsFamily b'.links b'.freeList fun l => (a'.free l).map slotOf) : Shows S b' a' := by
  have hslot : ∀ m, S.Has m → m ≠ n → slotOf m ≠ slotOf n := fun m hm hne he =>
    hne (slotOf_inj hm.1 hn.1 he)
  refine ⟨hheader.trans h.header, fun m hm => ?_, fun m hm => ?_, fun m hm hmf hmu => ?_, hlists⟩
  · by_cases hmn : m = n
    · rw [hmn] at hm ⊢
      exact hfree' hm
    · have hm' := (hfree m hmn).mp hm
      rw [hbody _ (hslot m (Inv_has hi (Or.inl hm')) hmn), h.free m hm']
  · by_cases hmn : m = n
    · rw [hmn] at hm ⊢
      exact hused' hm
    · have hm' := (hused m hmn).mp hm
      rw [hbody _ (hslot m (Inv_has hi (Or.inr hm')) hmn), h.used m hm']
  · by_cases hmn : m = n
    · rw [hmn] at hmf hmu ⊢
      exact hvacant' hmf hmu
    · have hv := h.vacant m hm (fun hf => hmf ((hfree m hmn).mpr hf))
        (fun hu => hmu ((hused m hmn).mpr hu))
      have hb := hbody _ (hslot m hm hmn)
      rw [← hv]
      exact congrArg (·.2.2.1) hb

/-! ### Blocks are made -/

section Create
variable (h : Shows S b a) (hi : a.Inv S.depth hole) (hn : S.Has n) (hf : n ∉ a.freeNodes)
  (hu : n ∉ a.used)

include h hn hf hu in
/-- `create_new_block` succeeds on a node that is neither free nor used. -/
theorem createNewBlock_run :
    (createNewBlock n.level (UInt32.ofNat (S.offset n)) (UInt32.ofNat (S.size n.level))).run b =
      .ok (slotOf n) (b.setBlock (slotOf n) (newBlock n.level (UInt32.ofNat (S.offset n)))) :=
  FileTransfer.createNewBlock_run b (Shape.calcBuddyAllocatorSlot_eq hn)
    (slot_lt_of_header h.header hn) (h.vacant n hn hf hu)

include hn in
theorem newBlock_body : (newBlock n.level (UInt32.ofNat (S.offset n))).body =
    (UInt32.ofNat (S.offset n), n.level, true, false) := by
  have hl := Shape.level_lt hn
  simp only [newBlock, BuddyAllocBlock.body, Nat.mod_eq_of_lt (show n.level < 64 by omega)]

include hi hn hf in
theorem slot_not_mem (l : ℕ) : slotOf n ∉ (a.free l).map slotOf := by
  intro hmem
  obtain ⟨m, hm, hs⟩ := List.mem_map.mp hmem
  have hml := hi.level_eq l m hm
  have hmf : m ∈ a.freeNodes := by rwa [Pool.mem_freeNodes, hml]
  exact hf (slotOf_inj (Inv_has hi (Or.inl hmf)).1 hn.1 hs ▸ hmf)

include h hi hn hf in
/-- Writing the block of a node that stands in no list leaves the lists as they are. -/
theorem lists_setBlock (blk : BuddyAllocBlock) :
    IsFamily (b.setBlock (slotOf n) blk).links b.freeList fun l => (a.free l).map slotOf := by
  have hne : ∀ l, ∀ x ∈ (a.free l).map slotOf, x ≠ slotOf n := by
    rintro l x hx rfl
    exact slot_not_mem hi hn hf l hx
  exact h.lists.congr
    (fun l x hx => congrArg BuddyAllocBlock.next (b.block_setBlock_of_ne _ _ (hne l x hx)))
    (fun l x hx => congrArg BuddyAllocBlock.prev (b.block_setBlock_of_ne _ _ (hne l x hx)))

include h hi hn hf hu in
/-- A block is made and put on its free list. -/
theorem push : ∃ b₁ b₂,
    (createNewBlock n.level (UInt32.ofNat (S.offset n)) (UInt32.ofNat (S.size n.level))).run b =
      .ok (slotOf n) b₁ ∧
    (linkedListAddBlock (slotOf n)).run b₁ = .ok () b₂ ∧ Shows S b₂ (a.push n) := by
  have hbody₁ := newBlock_body hn
  obtain ⟨b₂, hrun, hlinks, hheads, hheader, hbody⟩ := linkedListAddBlock_run
    (b.setBlock (slotOf n) (newBlock n.level (UInt32.ofNat (S.offset n)))) (slotOf n)
  have hlevel : (newBlock n.level (UInt32.ofNat (S.offset n))).level = n.level :=
    congrArg (·.2.1) hbody₁
  rw [BuddyAlloc.block_setBlock_self, hlevel, BuddyAlloc.freeList_setBlock] at hlinks hheads
  refine ⟨_, b₂, h.createNewBlock_run hn hf hu, hrun, ?_⟩
  refine h.change hi hn hheader (fun q hq => ?_) (fun m hm => ?_) (fun m _ => by rw [Pool.used_push])
    (fun _ => ?_) (fun hu' => absurd hu' hu) (fun hf' _ => ?_) ?_
  · rw [hbody, BuddyAlloc.block_setBlock_of_ne _ _ _ hq]
  · rw [Pool.freeNodes_push, Set.mem_insert_iff, or_iff_right hm]
  · rw [hbody, BuddyAlloc.block_setBlock_self, hbody₁]
  · exact absurd (by rw [Pool.freeNodes_push]; exact Set.mem_insert n _) hf'
  · have hfam := (h.lists_setBlock hi hn hf
      (newBlock n.level (UInt32.ofNat (S.offset n)))).pushFront n.level (slot_not_mem hi hn hf)
    rw [hlinks, hheads]
    convert hfam using 1
    funext l
    rw [Pool.free_push, Function.update_apply]
    split_ifs with hl
    · rw [hl, List.map_cons]
    · rfl

include h hi hn hf hu in
/-- A block is made and handed out. -/
theorem use : ∃ b₁,
    (createNewBlock n.level (UInt32.ofNat (S.offset n)) (UInt32.ofNat (S.size n.level))).run b =
      .ok (slotOf n) b₁ ∧ Shows S (b₁.setAllocated (slotOf n) true) (a.use n) := by
  have hbody₁ := newBlock_body hn
  refine ⟨_, h.createNewBlock_run hn hf hu, ?_⟩
  refine h.change hi hn rfl (fun q hq => ?_) (fun m _ => Iff.rfl) (fun m hm => ?_)
    (fun hf' => absurd hf' hf) (fun _ => ?_) (fun _ hu' => absurd (Set.mem_insert n _) hu') ?_
  · rw [BuddyAlloc.body_setAllocated, if_neg hq, BuddyAlloc.block_setBlock_of_ne _ _ _ hq]
  · rw [Pool.used_use, Set.mem_insert_iff, or_iff_right hm]
  · rw [BuddyAlloc.body_setAllocated, if_pos rfl, BuddyAlloc.block_setBlock_self]
    simp only [BuddyAllocBlock.body, Prod.mk.injEq] at hbody₁
    rw [hbody₁.1, hbody₁.2.1, hbody₁.2.2.1]
  · rw [BuddyAlloc.links_setAllocated]
    exact h.lists_setBlock hi hn hf _

end Create

/-! ### Blocks are unlinked and taken back -/

/-- Unlinking the block of a free node takes the node out of its list. -/
theorem lists_erase (h : Shows S b a) (hi : a.Inv S.depth hole) (hn : n ∈ a.freeNodes) :
    IsFamily (b.links.unlink (slotOf n)) (Function.update b.freeList n.level
      (b.links.unlinkHead (b.freeList n.level) (slotOf n)))
        fun l => ((a.erase n).free l).map slotOf := by
  obtain ⟨xs, ys, hxs⟩ := List.append_of_mem (Pool.mem_freeNodes.mp hn)
  have hnx : n ∉ xs := by
    have hnd := hi.nodup n.level
    rw [hxs] at hnd
    intro hmem
    exact List.disjoint_of_nodup_append hnd hmem List.mem_cons_self
  have hsplit : (a.free n.level).map slotOf = xs.map slotOf ++ slotOf n :: ys.map slotOf := by
    rw [hxs, List.map_append, List.map_cons]
  convert h.lists.unlink n.level hsplit using 1
  funext l
  rw [Pool.free_erase, Function.update_apply]
  split_ifs with hl
  · rw [hl, hxs, List.erase_append_right _ hnx, List.erase_cons_head, List.map_append]
  · rfl

/-- A free block is unlinked, and either removed or handed out. -/
theorem extract (h : Shows S b a) (hi : a.Inv S.depth hole) (hn : n ∈ a.freeNodes) :
    ∃ b₁, (linkedListExtractBlock (slotOf n) n.level).run b = .ok () b₁ ∧
      (b₁.block (slotOf n)).offset = UInt32.ofNat (S.offset n) ∧
      Shows S (b₁.setActive (slotOf n) false) (a.erase n) ∧
      Shows S (b₁.setAllocated (slotOf n) true) ((a.erase n).use n) := by
  have hhas : S.Has n := Inv_has hi (Or.inl hn)
  have hu : n ∉ a.used := Set.disjoint_left.mp hi.disjoint hn
  have hfree := hi.freeNodes_erase (n := n)
  obtain ⟨b₁, hrun, hlinks, hheads, hheader, hbody⟩ :=
    linkedListExtractBlock_run b (slotOf n) n.level
  have hself : (b₁.block (slotOf n)).body = (UInt32.ofNat (S.offset n), n.level, true, false) := by
    rw [hbody, h.free n hn]
  have hself' := hself
  simp only [BuddyAllocBlock.body, Prod.mk.injEq] at hself'
  obtain ⟨ho, hl, ha, -⟩ := hself'
  have hlists : IsFamily b₁.links b₁.freeList fun l => ((a.erase n).free l).map slotOf := by
    rw [hlinks, hheads]
    exact h.lists_erase hi hn
  refine ⟨b₁, hrun, ho, ?_, ?_⟩
  · refine h.change hi hhas hheader (fun q hq => ?_) (fun m hm => ?_) (fun m _ => Iff.rfl)
      (fun hf => ?_) (fun hu' => absurd hu' hu) (fun _ _ => ?_) ?_
    · rw [BuddyAlloc.body_setActive, if_neg hq, hbody]
    · rw [hfree, Set.mem_sdiff, Set.mem_singleton_iff, and_iff_left hm]
    · rw [hfree] at hf
      exact absurd rfl hf.2
    · have := b₁.body_setActive (slotOf n) false (slotOf n)
      rw [if_pos rfl] at this
      exact congrArg (·.2.2.1) this
    · rwa [BuddyAlloc.links_setActive]
  · refine h.change hi hhas hheader (fun q hq => ?_) (fun m hm => ?_) (fun m hm => ?_)
      (fun hf => ?_) (fun _ => ?_) (fun _ hu' => absurd (Set.mem_insert n _) hu') ?_
    · rw [BuddyAlloc.body_setAllocated, if_neg hq, hbody]
    · rw [Pool.freeNodes_use, hfree, Set.mem_sdiff, Set.mem_singleton_iff, and_iff_left hm]
    · rw [Pool.used_use, Set.mem_insert_iff, or_iff_right hm, Pool.used_erase]
    · rw [Pool.freeNodes_use, hfree] at hf
      exact absurd rfl hf.2
    · rw [BuddyAlloc.body_setAllocated, if_pos rfl, ho, hl, ha]
    · rwa [BuddyAlloc.links_setAllocated]

/-- A used block is taken back. -/
theorem unuse (h : Shows S b a) (hi : a.Inv S.depth hole) (hn : n ∈ a.used) :
    Shows S (b.setActive (slotOf n) false) (a.unuse n) := by
  have hf : n ∉ a.freeNodes := Set.disjoint_right.mp hi.disjoint hn
  refine h.change hi (Inv_has hi (Or.inr hn)) rfl (fun q hq => ?_) (fun m _ => Iff.rfl)
    (fun m hm => ?_) (fun hf' => absurd hf' hf) (fun hu' => absurd rfl hu'.2) (fun _ _ => ?_) ?_
  · rw [BuddyAlloc.body_setActive, if_neg hq]
  · rw [Pool.used_unuse, Set.mem_sdiff, Set.mem_singleton_iff, and_iff_left hm]
  · have := b.body_setActive (slotOf n) false (slotOf n)
    rw [if_pos rfl] at this
    exact congrArg (·.2.2.1) this
  · rw [BuddyAlloc.links_setActive]
    exact h.lists

end Shows
end FileTransfer
