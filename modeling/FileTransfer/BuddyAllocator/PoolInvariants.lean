import FileTransfer.BuddyAllocator.Counting
import FileTransfer.BuddyAllocator.DoubleFree
import FileTransfer.BuddyAllocator.PoolSession

/-! The free blocks, the free lists, their counts and second releases, over the words of a pool
of at most 27 levels; and what becomes of them where the slots overlap. -/
namespace FileTransfer.PoolMemory
open Bisection Run

namespace AllocSession
variable {elementsArray : Location} {cfg : BuddyAllocCfg} {heap heap' : Heap} {b : BuddyAlloc}
  {s : AllocSession}

/-! ### The free blocks are the largest ones that meet no live block -/

/-- The free blocks depend on the live ones only, and are as large as these allow. -/
theorem free_blocks_maximal (hc : (buddyAllocCreate elementsArray cfg).run heap = .ok b heap')
    (hfits : cfg.totalMemPoolSize.toNat ≤ 2 ^ 26 * cfg.minBlockSize.toNat)
    (hr : Reach onLive exec (start b) s) :
    s.LiveInSlots ∧ s.view.FreeIsMaximal cfg.totalMemPoolSize.toNat ∧
    (∀ l o, 0 < l → s.alloc.slots.FreeAt l o →
      ¬ s.alloc.slots.FreeAt l (o ^^^ s.alloc.slots.blockSize l)) ∧
    ((∀ p, s.live p = none) → ∀ l o, s.alloc.slots.FreeAt l o ↔ l = 0 ∧ o = 0) ∧
    ∀ (place : Location) (k k' : Heap) (c : BuddyAlloc) (t : AllocSession),
      (buddyAllocCreate place cfg).run k = .ok c k' → Reach onLive exec (start c) t →
      (∀ r, (∃ p, s.live p = some r) ↔ ∃ p, t.live p = some r) →
      ∀ l o, s.alloc.slots.FreeAt l o ↔ t.alloc.slots.FreeAt l o := by
  obtain ⟨S, ht, hm, ⟨A, -, henc⟩, a, h⟩ := view_of_reach hc hfits hr
  refine ⟨henc.liveInSlots, ?_, fun l o => h.not_free_buddies, fun hnone => ?_, ?_⟩
  · rw [ht, Shape.toNat_total]
    exact h.freeIsMaximal
  · refine h.freeAt_of_none_live fun i => Option.eq_none_iff_forall_not_mem.mpr fun r hi => ?_
    obtain ⟨p, hp⟩ := (henc.exists_live r).mpr ⟨i, hi⟩
    rw [hnone] at hp
    cases hp
  · intro place k k' c t hc' hr' hlive
    obtain ⟨S', ht', hm', ⟨A', -, henc'⟩, a', h'⟩ := view_of_reach hc' hfits hr'
    obtain rfl : S = S' := Shape.eq_of_total_eq (ht.symm.trans ht') (hm.symm.trans hm')
    apply h.freeAt_congr h'
    intro r
    rw [← henc.exists_live, ← henc'.exists_live, hlive]

theorem free_blocks_maximal_halves : ∃ b heap,
    (buddyAllocCreate page ⟨1024, 512⟩).run ⟨fun _ => true, 0, []⟩ = .ok b heap ∧
      (halves.foldl exec (start b)).view.FreeIsMaximal 1024 := by
  obtain ⟨b, heap, hc, hall⟩ : ∃ b heap,
      (buddyAllocCreate page ⟨1024, 512⟩).run ⟨fun _ => true, 0, []⟩ = .ok b heap ∧
        Allowed onLive exec (start b) halves := ⟨_, _, rfl, by decide +kernel⟩
  exact ⟨b, heap, hc, (free_blocks_maximal hc (by decide) (Reach.start.foldl halves hall)).2.1⟩

/-- In a pool of 28 levels a request for one byte overwrites the slot of a live block, and when that
block is freed the whole pool is free while the other blocks are live. -/
theorem free_block_meets_live : ∃ b heap s,
    (buddyAllocCreate page ⟨134217728, 1⟩).run ⟨fun _ => true, 0, []⟩ = .ok b heap ∧
      Reach onLive exec (start b) s ∧ s.live 4168 = some (2, 0) ∧ s.alloc.slots.FreeAt 0 0 ∧
      ¬ s.view.FreeIsMaximal 134217728 := by
  let ops : List AllocOp := [.allocate 67108864, .allocate 67108864, .free 4120] ++ everySecond ++
    [.allocate 4, .allocate 2, .allocate 1, .free 4144]
  obtain ⟨b, heap, s, hc, hr, hlive, hslot, hcount, hbody, hsize, hsize'⟩ : ∃ b heap s,
      (buddyAllocCreate page ⟨134217728, 1⟩).run ⟨fun _ => true, 0, []⟩ = .ok b heap ∧
        Reach onLive exec (start b) s ∧ s.live 4168 = some (2, 0) ∧ s.view.live 3 = some (2, 0) ∧
        0 < s.alloc.memPool.numOfElements.toNat ∧
        (s.alloc.slots.block 0).body = (0, 0, true, false) ∧
        s.alloc.slots.blockSize 0 = 134217728 ∧ s.alloc.slots.blockSize 2 = 33554432 :=
    exists_run ops (by decide +kernel)
  have hfree : s.alloc.slots.FreeAt 0 0 :=
    ⟨0, ⟨hcount, congrArg (·.2.2.1) hbody⟩, congrArg (·.2.2.2) hbody, congrArg (·.2.1) hbody,
      congrArg (·.1.toNat) hbody⟩
  refine ⟨b, heap, s, hc, hr, hlive, hfree, fun hmax => ((hmax 0 0).mp hfree).2.1 ?_⟩
  refine ⟨3, 2, 0, hslot, ?_, ?_⟩
  · rw [show s.view.alloc = s.alloc.slots from rfl, hsize']
    decide
  · rw [show s.view.alloc = s.alloc.slots from rfl, hsize]
    decide

/-! ### The free lists -/

theorem lists_hold_free_blocks (hc : (buddyAllocCreate elementsArray cfg).run heap = .ok b heap')
    (hfits : cfg.totalMemPoolSize.toNat ≤ 2 ^ 26 * cfg.minBlockSize.toNat)
    (hr : Reach onLive exec (start b) s) :
    ∀ l < s.alloc.numOfLevels, FileTransfer.AllocSession.ListsFree s.alloc.slots l := by
  obtain ⟨S, -, -, -, a, h⟩ := view_of_reach hc hfits hr
  exact fun l _ => h.listsFree l

theorem lists_hold_free_blocks_halves : ∃ b heap s,
    (buddyAllocCreate page ⟨1024, 512⟩).run ⟨fun _ => true, 0, []⟩ = .ok b heap ∧
      Reach onLive exec (start b) s ∧ s.alloc.numOfLevels = 2 ∧
      ∀ l < s.alloc.numOfLevels, FileTransfer.AllocSession.ListsFree s.alloc.slots l := by
  obtain ⟨b, heap, s, hc, hr, hlevels⟩ : ∃ b heap s,
      (buddyAllocCreate page ⟨1024, 512⟩).run ⟨fun _ => true, 0, []⟩ = .ok b heap ∧
        Reach onLive exec (start b) s ∧ s.alloc.numOfLevels = 2 :=
    exists_run halves (by decide +kernel)
  exact ⟨b, heap, s, hc, hr, hlevels, lists_hold_free_blocks hc (by decide) hr⟩

/-- A list whose first block points at no slot runs through other things than free blocks. -/
theorem not_listsFree {b : BuddyAlloc} {l v i : ℕ} (hl : l < b.numOfLevels)
    (hi : i < b.memPool.numOfElements.toNat) (haddr : b.memPool.address i = v) (hv : v ≠ 0)
    (hhead : b.freeList l = v) (hnull : b.memPool.words v ≠ 0)
    (hwild : b.memPool.elementsArray.addr + 2 ^ 32 ≤ b.memPool.words v) :
    ¬ FileTransfer.AllocSession.ListsFree b.slots l := by
  obtain ⟨k, hk, hkaddr, hslot⟩ := MemPool.exists_slotAt hv hi haddr
  have hnext : (b.slots.block k).next =
      some (b.memPool.numOfElements.toNat + b.memPool.words v) := by
    rw [b.next_slots hk, hkaddr]
    exact MemPool.slotAt_wild hnull fun j _ => ((b.memPool.address_lt j).trans_le hwild).ne
  have hfirst : b.slots.freeList l = some k := by
    rw [← hslot, ← hhead]
    exact if_pos hl
  rintro ⟨xs, hxs, hchain, -, hlast, -, hmem⟩
  rw [hfirst] at hxs
  obtain ⟨ys, rfl⟩ := List.head?_eq_some_iff.mp hxs.symm
  cases ys with
  | nil =>
    rw [hlast k rfl] at hnext
    cases hnext
  | cons m zs =>
    rw [(List.isChain_cons_cons.mp hchain).1.1, Option.some_inj] at hnext
    have hactive := ((hmem m).mp (by simp)).1.1
    subst hnext
    exact absurd hactive (Nat.not_lt.mpr (Nat.le_add_right _ _))

/-- In a pool of 28 levels the links of a free block are overwritten when a block is split. -/
theorem list_leaves_pool : ∃ b heap s,
    (buddyAllocCreate page ⟨134217728, 1⟩).run ⟨fun _ => true, 0, []⟩ = .ok b heap ∧
      Reach onLive exec (start b) s ∧ 1 < s.alloc.numOfLevels ∧ s.alloc.freeList 1 = 4144 ∧
      s.alloc.memPool.words 4144 = 390886763181 ∧
      ¬ FileTransfer.AllocSession.ListsFree s.alloc.slots 1 := by
  let ops : List AllocOp := everySecond ++ [.allocate 4, .allocate 1]
  obtain ⟨b, heap, s, hc, hr, hl, hslot, haddr, hhead, hnext, hplace⟩ : ∃ b heap s,
      (buddyAllocCreate page ⟨134217728, 1⟩).run ⟨fun _ => true, 0, []⟩ = .ok b heap ∧
        Reach onLive exec (start b) s ∧ 1 < s.alloc.numOfLevels ∧
        2 < s.alloc.memPool.numOfElements.toNat ∧ s.alloc.memPool.address 2 = 4144 ∧
        s.alloc.freeList 1 = 4144 ∧ s.alloc.memPool.words 4144 = 390886763181 ∧
        s.alloc.memPool.elementsArray.addr = 4096 :=
    exists_run ops (by decide +kernel)
  refine ⟨b, heap, s, hc, hr, hl, hhead, hnext, ?_⟩
  apply not_listsFree hl hslot haddr (by decide) hhead
  · rw [hnext]
    decide
  · rw [hplace, hnext]
    decide

end AllocSession

/-! ### Counting -/

/-- The walk along a list visits slots only. -/
theorem Encodes.countNext_eq {A : Layout} {b : BuddyAlloc} {c : FileTransfer.BuddyAlloc}
    (h : Encodes A b c) {v : ℕ} {q : Option ℕ} (hv : A.Pointer v q) (rounds : ℕ) (count : UInt32) :
    countNext b rounds v count = (FileTransfer.countNext c rounds q count).map .ok := by
  induction rounds generalizing v q count with
  | zero =>
    cases q with
    | none =>
      rw [countNext, if_pos (show v = 0 from hv)]
      rfl
    | some i =>
      rw [countNext, if_neg (hv.2 ▸ Layout.address_ne_zero)]
      rfl
  | succ rounds ih =>
    cases q with
    | none =>
      rw [countNext, if_pos (show v = 0 from hv)]
      rfl
    | some i =>
      obtain ⟨hi, rfl⟩ := hv
      have hholds : b.memPool.Holds (A.address i) := h.holds (k := 0) hi (by omega) (by omega)
      rw [countNext, if_neg Layout.address_ne_zero, if_pos hholds]
      exact ih (h.block i hi).next (count + 1)

theorem Encodes.count_eq {A : Layout} {b : BuddyAlloc} {c : FileTransfer.BuddyAlloc}
    (h : Encodes A b c) (rounds : ℕ) (level : UInt32) :
    buddyAllocCountFreeBlocks rounds b level =
      FileTransfer.buddyAllocCountFreeBlocks rounds c level := by
  rw [buddyAllocCountFreeBlocks, FileTransfer.buddyAllocCountFreeBlocks, h.numOfLevels, h.levels]
  by_cases hl : level.toNat < A.levels
  · rw [if_pos hl, if_neg (Nat.not_le.mpr hl)]
    exact h.countNext_eq (h.head _ hl) rounds 0
  · rw [if_neg hl, if_pos (Nat.not_lt.mp hl)]

/-- The call ends, reads no list that is not there and no word that is not there, and gives the
number of free blocks of the level, which is an `int`, or an error if there is no such level. -/
def BuddyAlloc.CountsExactly (b : BuddyAlloc) (level : UInt32) : Prop :=
  ∃ answer, (∀ rounds ≥ b.memPool.numOfElements.toNat,
      buddyAllocCountFreeBlocks rounds b level = some answer) ∧
    answer ≠ .error .outOfBounds ∧
    if level.toNat < b.numOfLevels then
      ∃ count, answer = .ok count ∧ count.toNat = (b.slots.freeSlots level.toNat).card ∧
        count.toNat < 2 ^ 31
    else ∃ e, answer = .error e

theorem Encodes.countsExactly_iff {A : Layout} {b : BuddyAlloc} {c : FileTransfer.BuddyAlloc}
    (h : Encodes A b c) (level : UInt32) : b.CountsExactly level ↔ c.CountsExactly level := by
  have hcount := h.numOfElements
  unfold BuddyAlloc.CountsExactly FileTransfer.BuddyAlloc.CountsExactly
  simp only [h.count_eq, h.slots_eq, h.numOfLevels, h.sizes.2.1, hcount]

namespace AllocSession
variable {elementsArray : Location} {cfg : BuddyAllocCfg} {heap heap' : Heap} {b : BuddyAlloc}
  {s : AllocSession}

/-- The counted blocks and the live blocks, all of which are in slots, make up the `total` bytes of
the pool. -/
structure Conserves (total : ℕ) (s : AllocSession) : Prop where
  live_slot : s.LiveInSlots
  sum : ∀ count : ℕ → UInt32, (∀ l < s.alloc.numOfLevels,
      buddyAllocCountFreeBlocks s.alloc.memPool.numOfElements.toNat s.alloc (UInt32.ofNat l) =
        some (.ok (count l))) →
    ∑ l ∈ Finset.range s.alloc.numOfLevels, (count l).toNat * s.alloc.slots.blockSize l +
      ∑ i ∈ Finset.range s.alloc.memPool.numOfElements.toNat, s.view.liveSize i = total

/-- In every state the free blocks are counted exactly for the levels that there are, and for no
others, and the counts account for the whole pool. -/
theorem free_blocks_counted_iff (hc : (buddyAllocCreate elementsArray cfg).run heap = .ok b heap')
    (hfits : cfg.totalMemPoolSize.toNat ≤ 2 ^ 26 * cfg.minBlockSize.toNat)
    (hr : Reach onLive exec (start b) s) :
    (∀ level, s.alloc.CountsExactly level ↔ level.toNat < s.alloc.numOfLevels) ∧
      Conserves cfg.totalMemPoolSize.toNat s := by
  obtain ⟨S, ht, -, ⟨A, -, henc⟩, a, h⟩ := view_of_reach hc hfits hr
  constructor
  · intro level
    rw [henc.alloc.countsExactly_iff, henc.alloc.numOfLevels]
    exact h.alloc.countsExactly_iff h.inv level
  · refine ⟨henc.liveInSlots, fun count hcount => ?_⟩
    simp only [henc.alloc.count_eq] at hcount
    rw [ht, Shape.toNat_total]
    exact h.conserves.sum count hcount

theorem free_blocks_counted_iff_halves : ∃ b heap s,
    (buddyAllocCreate page ⟨1024, 512⟩).run ⟨fun _ => true, 0, []⟩ = .ok b heap ∧
      Reach onLive exec (start b) s ∧ s.returned = [4120, 4144, 4120] ∧ Conserves 1024 s := by
  obtain ⟨b, heap, s, hc, hr, hreturned⟩ : ∃ b heap s,
      (buddyAllocCreate page ⟨1024, 512⟩).run ⟨fun _ => true, 0, []⟩ = .ok b heap ∧
        Reach onLive exec (start b) s ∧ s.returned = [4120, 4144, 4120] :=
    exists_run halves (by decide +kernel)
  exact ⟨b, heap, s, hc, hr, hreturned, (free_blocks_counted_iff hc (by decide) hr).2⟩

/-- An allocator with two levels is asked for the blocks of a third one. -/
theorem free_blocks_of_no_level : ∃ b heap,
    (buddyAllocCreate page ⟨1024, 512⟩).run ⟨fun _ => true, 0, []⟩ = .ok b heap ∧
      b.numOfLevels = 2 ∧
      (∀ rounds, buddyAllocCountFreeBlocks rounds b 2 = some (.error .outOfBounds)) ∧
      ¬ b.CountsExactly 2 := by
  obtain ⟨b, heap, hc, hlevels⟩ : ∃ b heap,
      (buddyAllocCreate page ⟨1024, 512⟩).run ⟨fun _ => true, 0, []⟩ = .ok b heap ∧
        b.numOfLevels = 2 := ⟨_, _, rfl, rfl⟩
  have hread : ∀ rounds, buddyAllocCountFreeBlocks rounds b 2 = some (.error .outOfBounds) := by
    intro rounds
    have htwo : (2 : UInt32).toNat = 2 := rfl
    rw [buddyAllocCountFreeBlocks, hlevels, htwo, if_neg (by decide)]
  refine ⟨b, heap, hc, hlevels, hread, ?_⟩
  rintro ⟨answer, hall, hne, -⟩
  have hanswer := hall _ le_rfl
  rw [hread] at hanswer
  exact hne (Option.some.inj hanswer).symm

/-! ### Second releases -/

/-- `buddy_alloc_free` refuses the handle and leaves every slot and every free list alone. -/
def FreeRefused (b : BuddyAlloc) (p : ℕ) : Prop :=
  ∃ e b', (buddyAllocFree p).run b = .error e b' ∧
    (∀ q, b'.memPool.words q = b.memPool.words q) ∧ ∀ l, b'.freeList l = b.freeList l

theorem FreeRefused.slots {A : Layout} {b : BuddyAlloc} {c : FileTransfer.BuddyAlloc} {i : ℕ}
    (h : PoolMemory.Encodes A b c) (hi : i < A.slots.toNat) (hfree : FreeRefused b (A.address i)) :
    FileTransfer.FreeRefused c i := by
  obtain ⟨e, b', hrun, hwords, hheads⟩ := hfree
  have hagree := h.free_agree hi
  rw [hrun] at hagree
  obtain ⟨c', hrun', henc⟩ := hagree.error_right
  refine ⟨e, c', hrun', fun j => ?_, fun l => ?_⟩
  · rw [← henc.slot_eq, ← h.slot_eq, henc.slot_congr h (funext hwords)]
  · rw [← henc.slots_eq, ← h.slots_eq]
    dsimp only [BuddyAlloc.slots]
    rw [henc.sizes.2.2.2, h.sizes.2.2.2, hheads, henc.slotAt_congr h]

/-- No release of a handle that was ever returned is refused, so no second release is. -/
theorem stale_free_not_refused
    (hc : (buddyAllocCreate elementsArray cfg).run heap = .ok b heap')
    (hfits : cfg.totalMemPoolSize.toNat ≤ 2 ^ 26 * cfg.minBlockSize.toNat)
    (hr : Reach onReturned exec (start b) s) {p : ℕ} (hp : p ∈ s.returned) :
    ¬ FreeRefused s.alloc p := by
  obtain ⟨⟨A, henc⟩, S, c, hmade, hr'⟩ := view_of_reach_returned hc hfits hr
  rw [henc.returned] at hp
  obtain ⟨i, hi, rfl⟩ := List.mem_map.mp hp
  intro hfree
  exact (FileTransfer.AllocSession.remembers_of_made hmade hr').not_freeRefused hi
    (hfree.slots henc.alloc (henc.returned_slot i hi))

theorem stale_free_not_refused_merged : ∃ b heap s,
    (buddyAllocCreate page ⟨1024, 512⟩).run ⟨fun _ => true, 0, []⟩ = .ok b heap ∧
      Reach onReturned exec (start b) s ∧ s.live 4120 = none ∧
      (s.alloc.slots.block 1).isActive = false ∧ ¬ FreeRefused s.alloc 4120 := by
  let ops : List AllocOp :=
    [.allocate 512, .allocate 300, .allocate 512, .free 4120, .free 4144]
  obtain ⟨b, heap, s, hc, hr, hreturned, hlive, hgone⟩ : ∃ b heap s,
      (buddyAllocCreate page ⟨1024, 512⟩).run ⟨fun _ => true, 0, []⟩ = .ok b heap ∧
        Reach onReturned exec (start b) s ∧ s.returned = [4144, 4120] ∧ s.live 4120 = none ∧
        (s.alloc.slots.block 1).isActive = false :=
    exists_run ops (by decide +kernel)
  have hp : 4120 ∈ s.returned := by
    rw [hreturned]
    decide
  exact ⟨b, heap, s, hc, hr, hlive, hgone, stale_free_not_refused hc (by decide) hr hp⟩

/-- A block is freed twice, and the list of its level then loops. -/
theorem double_free_accepted : ∃ b heap s b',
    (buddyAllocCreate page ⟨512, 512⟩).run ⟨fun _ => true, 0, []⟩ = .ok b heap ∧
      Reach onReturned exec (start b) s ∧ s.returned = [4096] ∧ s.live 4096 = none ∧
      (s.alloc.slots.block 0).isAllocated = false ∧
      (buddyAllocFree 4096).run s.alloc = .ok () b' ∧ b'.memPool.words 4096 = 4096 ∧
      ¬ FreeRefused s.alloc 4096 := by
  let ops : List AllocOp := [.allocate 512, .free 4096]
  obtain ⟨b, heap, s, hc, hr, hreturned, hlive, hfree, hagain⟩ : ∃ b heap s,
      (buddyAllocCreate page ⟨512, 512⟩).run ⟨fun _ => true, 0, []⟩ = .ok b heap ∧
        Reach onReturned exec (start b) s ∧ s.returned = [4096] ∧ s.live 4096 = none ∧
        (s.alloc.slots.block 0).isAllocated = false ∧
        Leaves (fun _ b' => b'.memPool.words 4096 = 4096) (fun _ => False)
          ((buddyAllocFree 4096).run s.alloc) :=
    exists_run ops (by decide +kernel)
  obtain ⟨_, b', hrun, hnext⟩ := hagain.exists_ok
  refine ⟨b, heap, s, b', hc, hr, hreturned, hlive, hfree, hrun, hnext, ?_⟩
  rintro ⟨e, c, herr, -⟩
  rw [hrun] at herr
  cases herr

end AllocSession
end FileTransfer.PoolMemory
