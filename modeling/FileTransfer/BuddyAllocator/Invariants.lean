import FileTransfer.BuddyAllocator.Session

/-! What holds of the blocks and of the free lists in every state of a run in which only
live handles are freed. -/
namespace FileTransfer
open Bisection Run

namespace BuddyAlloc
variable (b : BuddyAlloc)

/-- The slots that hold a block. -/
def Active (p : ℕ) : Prop :=
  p < b.memPool.numOfElements.toNat ∧ (b.block p).isActive = true

def blockSize (level : ℕ) : ℕ := (getBlockSize level b.minBlockSize b.numOfLevels).toNat

/-- The block in a slot contains a byte. -/
def Covers (p x : ℕ) : Prop :=
  (b.block p).offset.toNat ≤ x ∧ x < (b.block p).offset.toNat + b.blockSize (b.block p).level

def FreeAt (level offset : ℕ) : Prop :=
  ∃ p, b.Active p ∧ (b.block p).isAllocated = false ∧ (b.block p).level = level ∧
    (b.block p).offset.toNat = offset

end BuddyAlloc

namespace Shows
variable {S : Shape} {b : BuddyAlloc} {a : Pool} {n : Node}

theorem blockSize_eq (h : Shows S b a) {l : ℕ} (hl : l ≤ S.depth) : b.blockSize l = S.size l := by
  rw [BuddyAlloc.blockSize, h.minBlockSize, h.numOfLevels, Shape.getBlockSize_eq hl,
    Word.toNat_ofNat (S.size_lt l)]

/-- An active slot holds a node, with the offset and the level of that node. -/
theorem active_iff (h : Shows S b a) (hi : a.Inv S.depth ∅) {p : ℕ} :
    b.Active p ↔ ∃ n ∈ a.freeNodes ∪ a.used, slotOf n = p := by
  constructor
  · rintro ⟨hlt, hactive⟩
    rw [h.numOfElements] at hlt
    have hslot := (slotOf_nodeAt p).1
    refine ⟨nodeAt p, ?_, hslot⟩
    by_contra hn
    rw [Set.mem_union, not_or] at hn
    have := h.vacant (nodeAt p) (Shape.has_nodeAt hlt) hn.1 hn.2
    rw [hslot, hactive] at this
    cases this
  · rintro ⟨n, hn, rfl⟩
    constructor
    · exact slot_lt_of_header h.header (Inv_has hi hn)
    · rcases hn with hn | hn
      · exact congrArg (·.2.2.1) (h.free n hn)
      · exact congrArg (·.2.2.1) (h.used n hn)

theorem block_eq (h : Shows S b a) (hn : n ∈ a.freeNodes ∪ a.used) :
    (b.block (slotOf n)).offset = UInt32.ofNat (S.offset n) ∧
      (b.block (slotOf n)).level = n.level := by
  rcases hn with hn | hn
  · exact ⟨congrArg (·.1) (h.free n hn), congrArg (·.2.1) (h.free n hn)⟩
  · exact ⟨congrArg (·.1) (h.used n hn), congrArg (·.2.1) (h.used n hn)⟩

theorem isAllocated_iff (h : Shows S b a) (hn : n ∈ a.freeNodes ∪ a.used) :
    (b.block (slotOf n)).isAllocated = true ↔ n ∈ a.used := by
  constructor
  · intro hal
    refine hn.resolve_left fun hf => ?_
    have := congrArg (·.2.2.2) (h.free n hf)
    rw [show (b.block (slotOf n)).isAllocated = false from this] at hal
    cases hal
  · intro hu
    exact congrArg (·.2.2.2) (h.used n hu)

theorem offset_toNat (h : Shows S b a) (hi : a.Inv S.depth ∅) (hn : n ∈ a.freeNodes ∪ a.used) :
    (b.block (slotOf n)).offset.toNat = S.offset n := by
  rw [(h.block_eq hn).1, Word.toNat_ofNat (Shape.offset_lt (Inv_has hi hn))]

theorem covers_iff (h : Shows S b a) (hi : a.Inv S.depth ∅) (hn : n ∈ a.freeNodes ∪ a.used)
    (x : ℕ) : b.Covers (slotOf n) x ↔ S.leafAt x ≤ n := by
  have hhas := Inv_has hi hn
  rw [BuddyAlloc.Covers, h.offset_toNat hi hn, (h.block_eq hn).2, h.blockSize_eq hhas.2,
    Shape.leafAt_le_iff hhas]

/-- Each byte of the pool is covered by one active slot. -/
theorem existsUnique_covers (h : Shows S b a) (hi : a.Inv S.depth ∅) {x : ℕ}
    (hx : x < 2 ^ S.top) : ∃! p, b.Active p ∧ b.Covers p x := by
  have htiles := hi.tiles
  rw [Set.empty_union] at htiles
  obtain ⟨n, ⟨hn, hle⟩, huniq⟩ := htiles.cover (S.leafAt x) (Shape.leafAt_le_root hx) rfl
  refine ⟨slotOf n, ⟨(h.active_iff hi).mpr ⟨n, hn, rfl⟩, (h.covers_iff hi hn x).mpr hle⟩, ?_⟩
  rintro p ⟨hp, hpx⟩
  obtain ⟨m, hm, rfl⟩ := (h.active_iff hi).mp hp
  rw [huniq m ⟨hm, (h.covers_iff hi hm x).mp hpx⟩]

theorem offset_add_blockSize_le (h : Shows S b a) (hi : a.Inv S.depth ∅) {p : ℕ}
    (hp : b.Active p) :
    (b.block p).offset.toNat + b.blockSize (b.block p).level ≤ 2 ^ S.top := by
  obtain ⟨n, hn, rfl⟩ := (h.active_iff hi).mp hp
  have hhas := Inv_has hi hn
  rw [h.offset_toNat hi hn, (h.block_eq hn).2, h.blockSize_eq hhas.2]
  exact Shape.offset_add_size_le hhas

/-- The list of a level holds the active slots of the level that are not allocated. -/
theorem mem_map_free (h : Shows S b a) (hi : a.Inv S.depth ∅) {l p : ℕ} :
    p ∈ (a.free l).map slotOf ↔
      b.Active p ∧ (b.block p).isAllocated = false ∧ (b.block p).level = l := by
  rw [List.mem_map, h.active_iff hi]
  constructor
  · rintro ⟨n, hn, rfl⟩
    have hl := hi.level_eq l n hn
    have hfree : n ∈ a.freeNodes := by rwa [Pool.mem_freeNodes, hl]
    refine ⟨⟨n, Or.inl hfree, rfl⟩, congrArg (·.2.2.2) (h.free n hfree), ?_⟩
    rw [(h.block_eq (Or.inl hfree)).2, hl]
  · rintro ⟨⟨n, hn, rfl⟩, hal, hl⟩
    have hu : n ∉ a.used := by
      rw [← h.isAllocated_iff hn, hal]
      exact Bool.false_ne_true
    rw [(h.block_eq hn).2] at hl
    have hfree := hn.resolve_right hu
    rw [Pool.mem_freeNodes, hl] at hfree
    exact ⟨n, hfree, rfl⟩

theorem freeAt_iff (h : Shows S b a) (hi : a.Inv S.depth ∅) {l o : ℕ} :
    b.FreeAt l o ↔ ∃ n ∈ a.freeNodes, n.level = l ∧ S.offset n = o := by
  constructor
  · rintro ⟨p, hp, hfree, hl, ho⟩
    obtain ⟨n, hn, rfl⟩ := (h.active_iff hi).mp hp
    have hu : n ∉ a.used := by
      rw [← h.isAllocated_iff hn, hfree]
      exact Bool.false_ne_true
    rw [(h.block_eq hn).2] at hl
    rw [h.offset_toNat hi hn] at ho
    exact ⟨n, hn.resolve_right hu, hl, ho⟩
  · rintro ⟨n, hn, hl, ho⟩
    have hn' : n ∈ a.freeNodes ∪ a.used := Or.inl hn
    refine ⟨slotOf n, (h.active_iff hi).mpr ⟨n, hn', rfl⟩, congrArg (·.2.2.2) (h.free n hn), ?_, ?_⟩
    · rw [(h.block_eq hn').2, hl]
    · rw [h.offset_toNat hi hn', ho]

end Shows

namespace AllocSession

/-! ### The blocks tile the pool -/

/-- The active blocks tile the pool of `total` bytes, each in its own slot and at a multiple
of its size, and the allocated ones are the live handles as they were returned. -/
structure BlocksTile (total : ℕ) (s : AllocSession) : Prop where
  cover : ∀ x < total, ∃! p, s.alloc.Active p ∧ s.alloc.Covers p x
  inside : ∀ p, s.alloc.Active p →
    (s.alloc.block p).offset.toNat + s.alloc.blockSize (s.alloc.block p).level ≤ total
  aligned : ∀ p, s.alloc.Active p →
    s.alloc.blockSize (s.alloc.block p).level ∣ (s.alloc.block p).offset.toNat
  slot : ∀ p, s.alloc.Active p →
    (calcBuddyAllocatorSlot (s.alloc.block p).offset (s.alloc.block p).level
      (getBlockSize (s.alloc.block p).level s.alloc.minBlockSize s.alloc.numOfLevels)).toNat = p
  live : ∀ p level offset, s.live p = some (level, offset) ↔
    s.alloc.Active p ∧ (s.alloc.block p).isAllocated = true ∧
      (s.alloc.block p).level = level ∧ (s.alloc.block p).offset = offset
  apart : ∀ p q, s.live p ≠ none → s.live q ≠ none → p ≠ q →
    ∀ x, ¬ (s.alloc.Covers p x ∧ s.alloc.Covers q x)

section Tile
variable {S : Shape} {s : AllocSession} {a : Pool}

theorem Shows.live_iff (h : Shows S s a) {p level : ℕ} {offset : UInt32} :
    s.live p = some (level, offset) ↔
      s.alloc.Active p ∧ (s.alloc.block p).isAllocated = true ∧
        (s.alloc.block p).level = level ∧ (s.alloc.block p).offset = offset := by
  rw [h.live, h.alloc.active_iff h.inv]
  constructor
  · rintro ⟨n, hn, rfl, hr⟩
    have hn' : n ∈ a.freeNodes ∪ a.used := Or.inr hn
    obtain ⟨rfl, rfl⟩ := Prod.mk.inj hr
    exact ⟨⟨n, hn', rfl⟩, (h.alloc.isAllocated_iff hn').mpr hn, (h.alloc.block_eq hn').2,
      (h.alloc.block_eq hn').1⟩
  · rintro ⟨⟨n, hn, rfl⟩, hal, hl, ho⟩
    refine ⟨n, (h.alloc.isAllocated_iff hn).mp hal, rfl, ?_⟩
    rw [← hl, ← ho, (h.alloc.block_eq hn).2, (h.alloc.block_eq hn).1]

theorem Shows.active_of_live (h : Shows S s a) {p : ℕ} (hp : s.live p ≠ none) :
    s.alloc.Active p := by
  obtain ⟨n, hn, rfl⟩ := h.exists_used hp
  exact (h.alloc.active_iff h.inv).mpr ⟨n, Or.inr hn, rfl⟩

theorem Shows.blocksTile (h : Shows S s a) : BlocksTile (2 ^ S.top) s := by
  constructor
  · intro x hx
    exact h.alloc.existsUnique_covers h.inv hx
  · intro p hp
    exact h.alloc.offset_add_blockSize_le h.inv hp
  · intro p hp
    obtain ⟨n, hn, rfl⟩ := (h.alloc.active_iff h.inv).mp hp
    rw [h.alloc.offset_toNat h.inv hn, (h.alloc.block_eq hn).2,
      h.alloc.blockSize_eq (Inv_has h.inv hn).2]
    exact Dvd.intro_left _ rfl
  · intro p hp
    obtain ⟨n, hn, rfl⟩ := (h.alloc.active_iff h.inv).mp hp
    have hhas := Inv_has h.inv hn
    have hlt := (Shape.slot_lt hhas).trans S.slots_lt
    rw [(h.alloc.block_eq hn).1, (h.alloc.block_eq hn).2, h.alloc.minBlockSize,
      h.alloc.numOfLevels, Shape.getBlockSize_eq hhas.2, Shape.calcBuddyAllocatorSlot_eq hhas,
      Word.toNat_ofNat hlt]
  · intro p level offset
    exact h.live_iff
  · intro p q hp hq hne x hx
    have hp' := h.active_of_live hp
    have hxt : x < 2 ^ S.top :=
      hx.1.2.trans_le (h.alloc.offset_add_blockSize_le h.inv hp')
    have hone := h.alloc.existsUnique_covers h.inv hxt
    exact hne (hone.unique ⟨hp', hx.1⟩ ⟨h.active_of_live hq, hx.2⟩)

end Tile

/-- The tiling invariant, and what no operation changes. -/
theorem blocks_tile {cfg : BuddyAllocCfg} {heap heap' : Heap} {b : BuddyAlloc}
    {s : AllocSession} (hc : (buddyAllocCreate cfg).run heap = .ok b heap')
    (hr : Reach onLive exec (start b) s) :
    BlocksTile cfg.totalMemPoolSize.toNat s ∧
      ∀ op, onLive s op → ∀ p, s.live p ≠ none → op ≠ .free p →
        (s.exec op).live p = s.live p ∧
          ((s.exec op).alloc.block p).body = (s.alloc.block p).body := by
  obtain ⟨S, ht, -, a, h⟩ := shows_of_reach hc hr
  rw [ht, Shape.toNat_total]
  refine ⟨h.blocksTile, fun op hop p hp hne => ?_⟩
  obtain ⟨n, hn, rfl⟩ := h.exists_used hp
  obtain ⟨a', h', hused⟩ := h.exec_used hop
  have hn' := hused n hn hne
  rw [h'.live_used hn', h.live_used hn, h'.alloc.used n hn', h.alloc.used n hn]
  exact ⟨rfl, rfl⟩

theorem blocks_tile_halves : ∃ b heap,
    (buddyAllocCreate ⟨1024, 512⟩).run ⟨fun _ => true, 0, []⟩ = .ok b heap ∧
      BlocksTile 1024 (halves.foldl exec (start b)) := by
  obtain ⟨b, heap, hc, hall⟩ : ∃ b heap,
      (buddyAllocCreate ⟨1024, 512⟩).run ⟨fun _ => true, 0, []⟩ = .ok b heap ∧
        Allowed onLive exec (start b) halves := ⟨_, _, rfl, by decide +kernel⟩
  exact ⟨b, heap, hc, (blocks_tile hc (Reach.start.foldl halves hall)).1⟩

/-! ### The free blocks are the largest ones that meet no live block -/

/-- The range of some live handle meets the given one. -/
def MeetsLive (s : AllocSession) (offset size : ℕ) : Prop :=
  ∃ p level o, s.live p = some (level, o) ∧
    offset < o.toNat + s.alloc.blockSize level ∧ o.toNat < offset + size

/-- The free blocks are the largest blocks of the pool of `total` bytes that meet no live one. -/
def FreeIsMaximal (total : ℕ) (s : AllocSession) : Prop :=
  ∀ l o, s.alloc.FreeAt l o ↔
    (l < s.alloc.numOfLevels ∧ s.alloc.blockSize l ∣ o ∧ o + s.alloc.blockSize l ≤ total) ∧
      ¬ s.MeetsLive o (s.alloc.blockSize l) ∧
      (l = 0 ∨ s.MeetsLive (o / s.alloc.blockSize (l - 1) * s.alloc.blockSize (l - 1))
        (s.alloc.blockSize (l - 1)))

namespace Shows
variable {S : Shape} {s s' : AllocSession} {a a' : Pool} {n : Node}

theorem meetsLive_iff (h : Shows S s a) (hn : S.Has n) :
    s.MeetsLive (S.offset n) (S.size n.level) ↔ ∃ u ∈ a.used, Node.Overlap n u := by
  have hmeet : ∀ u ∈ a.used, (Node.Overlap n u ↔
      S.offset n < (UInt32.ofNat (S.offset u)).toNat + s.alloc.blockSize u.level ∧
        (UInt32.ofNat (S.offset u)).toNat < S.offset n + S.size n.level) := by
    intro u hu
    have hhas := Inv_has h.inv (Or.inr hu)
    rw [Word.toNat_ofNat (Shape.offset_lt hhas), h.alloc.blockSize_eq hhas.2,
      Shape.overlap_iff_meet hn hhas]
  constructor
  · rintro ⟨p, level, o, hlive, hlt⟩
    obtain ⟨u, hu, rfl, hr⟩ := (h.live p _).mp hlive
    obtain ⟨rfl, rfl⟩ := Prod.mk.inj hr
    exact ⟨u, hu, (hmeet u hu).mpr hlt⟩
  · rintro ⟨u, hu, ho⟩
    exact ⟨slotOf u, u.level, _, h.live_used hu, (hmeet u hu).mp ho⟩

theorem freeIsMaximal (h : Shows S s a) : FreeIsMaximal (2 ^ S.top) s := by
  intro l o
  have key : ∀ n, S.Has n → (n ∈ a.freeNodes ↔
      ¬ s.MeetsLive (S.offset n) (S.size n.level) ∧ (n.level = 0 ∨
        s.MeetsLive (S.offset n.parent) (S.size n.parent.level))) := by
    intro n hn
    rw [h.inv.mem_freeNodes_iff hn.1 hn.2, h.meetsLive_iff hn, h.meetsLive_iff (Shape.has_parent hn)]
    push Not
    rfl
  rw [h.alloc.freeAt_iff h.inv, h.alloc.numOfLevels]
  constructor
  · rintro ⟨n, hn, rfl, rfl⟩
    have hhas := Inv_has h.inv (Or.inl hn)
    have hparent := Shape.has_parent hhas
    obtain ⟨hself, hup⟩ := (key n hhas).mp hn
    rw [h.alloc.blockSize_eq hhas.2]
    refine ⟨⟨Nat.lt_succ_of_le hhas.2, Dvd.intro_left _ rfl, Shape.offset_add_size_le hhas⟩, hself, ?_⟩
    rcases Nat.eq_zero_or_pos n.level with hz | hpos
    · exact Or.inl hz
    · right
      rw [← Node.level_parent, h.alloc.blockSize_eq hparent.2, ← Shape.offset_parent hhas hpos]
      exact hup.resolve_left hpos.ne'
  · rintro ⟨⟨hl, hdvd, hle⟩, hself, hup⟩
    have hl' : l ≤ S.depth := Nat.le_of_lt_succ hl
    rw [h.alloc.blockSize_eq hl'] at hdvd hle hself
    have hhas := Shape.has_nodeOf hl' hle
    have hoff := Shape.offset_nodeOf hdvd
    have hlevel : (S.nodeOf l o).level = l := rfl
    refine ⟨S.nodeOf l o, (key _ hhas).mpr ⟨?_, ?_⟩, rfl, hoff⟩
    · rwa [hoff]
    · rcases Nat.eq_zero_or_pos l with hz | hpos
      · exact Or.inl hz
      · right
        have hmeet := hup.resolve_left hpos.ne'
        have hparent := Shape.has_parent hhas
        rw [← hlevel, ← Node.level_parent, h.alloc.blockSize_eq hparent.2] at hmeet
        rwa [Shape.offset_parent hhas hpos, hoff]

/-- The live handles determine the used nodes. -/
theorem mem_used_iff (h : Shows S s a) : n ∈ a.used ↔
    S.Has n ∧ ∃ p, s.live p = some (n.level, UInt32.ofNat (S.offset n)) := by
  constructor
  · intro hn
    exact ⟨Inv_has h.inv (Or.inr hn), slotOf n, h.live_used hn⟩
  · rintro ⟨hhas, p, hp⟩
    obtain ⟨m, hm, -, hr⟩ := (h.live p _).mp hp
    obtain ⟨hl, ho⟩ := Prod.mk.inj hr
    have hm' := Inv_has h.inv (Or.inr hm)
    rw [Word.ofNat_inj (Shape.offset_lt hm') (Shape.offset_lt hhas)] at ho
    rwa [← Shape.eq_of_offset_eq hl ho]

/-- And the used nodes determine the free ones. -/
theorem freeAt_congr (h : Shows S s a) (h' : Shows S s' a')
    (hlive : ∀ r, (∃ p, s.live p = some r) ↔ ∃ p, s'.live p = some r) (l o : ℕ) :
    s.alloc.FreeAt l o ↔ s'.alloc.FreeAt l o := by
  have hused : a.used = a'.used := by
    ext n
    rw [h.mem_used_iff, h'.mem_used_iff, hlive]
  have hfree : ∀ n, n ∈ a.freeNodes ↔ n ∈ a'.freeNodes := by
    have hsub : ∀ {s s' : AllocSession} {a a' : Pool}, Shows S s a → Shows S s' a' →
        a.used = a'.used → ∀ n, n ∈ a.freeNodes → n ∈ a'.freeNodes := by
      intro s s' a a' h h' hused n hn
      have hhas := Inv_has h.inv (Or.inl hn)
      rw [h.inv.mem_freeNodes_iff hhas.1 hhas.2, hused] at hn
      rwa [h'.inv.mem_freeNodes_iff hhas.1 hhas.2]
    exact fun n => ⟨hsub h h' hused n, hsub h' h hused.symm n⟩
  simp only [h.alloc.freeAt_iff h.inv, h'.alloc.freeAt_iff h'.inv, hfree]

theorem not_free_buddies (h : Shows S s a) {l o : ℕ} (hl : 0 < l) (hfree : s.alloc.FreeAt l o) :
    ¬ s.alloc.FreeAt l (o ^^^ s.alloc.blockSize l) := by
  obtain ⟨n, hn, rfl, rfl⟩ := (h.alloc.freeAt_iff h.inv).mp hfree
  rw [h.alloc.blockSize_eq (Inv_has h.inv (Or.inl hn)).2, Shape.offset_xor_size,
    h.alloc.freeAt_iff h.inv]
  rintro ⟨m, hm, hml, hmo⟩
  obtain rfl : m = n.buddy := Shape.eq_of_offset_eq hml hmo
  rcases Node.eq_left_or_right n hl with he | he <;> rw [he] at hn hm
  · rw [Node.buddy_left] at hm
    exact h.inv.coalesced _ ⟨hn, hm⟩
  · rw [Node.buddy_right] at hm
    exact h.inv.coalesced _ ⟨hm, hn⟩

theorem freeAt_of_none_live (h : Shows S s a) (hlive : ∀ p, s.live p = none) (l o : ℕ) :
    s.alloc.FreeAt l o ↔ l = 0 ∧ o = 0 := by
  have hused : ∀ u, u ∉ a.used := by
    intro u hu
    have := h.live_used hu
    rw [hlive] at this
    cases this
  have hfree : ∀ n, S.Has n → (n ∈ a.freeNodes ↔ n.level = 0) := by
    intro n hn
    rw [h.inv.mem_freeNodes_iff hn.1 hn.2]
    simp [hused]
  have hroot : S.offset Node.root = 0 := Nat.zero_mul _
  rw [h.alloc.freeAt_iff h.inv]
  constructor
  · rintro ⟨n, hn, rfl, rfl⟩
    have hhas := Inv_has h.inv (Or.inl hn)
    have hz := (hfree n hhas).mp hn
    have hi := Node.le_root_iff.mp hhas.1
    rw [hz, pow_zero, Nat.lt_one_iff] at hi
    exact ⟨hz, by rw [Shape.offset, hi, Nat.zero_mul]⟩
  · rintro ⟨rfl, rfl⟩
    exact ⟨Node.root, (hfree _ S.has_root).mpr rfl, rfl, hroot⟩

end Shows

/-! ### The free lists -/

/-- The list of a level is doubly linked, ends, and runs through the free blocks of the level. -/
def ListsFree (b : BuddyAlloc) (l : ℕ) : Prop :=
  ∃ xs : List ℕ, b.freeList l = xs.head? ∧
    (xs.IsChain fun p q => (b.block p).next = some q ∧ (b.block q).prev = some p) ∧
    (∀ p, xs.head? = some p → (b.block p).prev = none) ∧
    (∀ p, xs.getLast? = some p → (b.block p).next = none) ∧
    xs.Nodup ∧
    ∀ p, p ∈ xs ↔ b.Active p ∧ (b.block p).isAllocated = false ∧ (b.block p).level = l

theorem Shows.listsFree {S : Shape} {s : AllocSession} {a : Pool} (h : Shows S s a) (l : ℕ) :
    ListsFree s.alloc l := by
  have hlist := h.alloc.lists.isList l
  refine ⟨(a.free l).map slotOf, hlist.head_eq, hlist.isChain, ?_, fun p => hlist.next_getLast,
    h.alloc.lists.nodup l, ?_⟩
  · intro p hp
    obtain ⟨ys, hys⟩ := List.head?_eq_some_iff.mp hp
    rw [hys] at hlist
    exact hlist.prev_head
  · intro p
    exact h.alloc.mem_map_free h.inv

end AllocSession
end FileTransfer
