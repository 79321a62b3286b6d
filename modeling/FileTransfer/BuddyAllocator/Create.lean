import FileTransfer.BuddyAllocator.Operations

/-! What `buddy_alloc_create` accepts, and the allocator it makes. -/
namespace FileTransfer
open Bisection Intrusive

theorem countLevels_zero (rounds : ℕ) : countLevels rounds 0 = 0 := by
  cases rounds <;> rfl

theorem countLevels_two_pow {rounds k : ℕ} (hk : k < 32) (hr : k < rounds) :
    countLevels rounds (UInt32.ofNat (2 ^ k)) = k + 1 := by
  induction k generalizing rounds with
  | zero =>
    obtain ⟨r, rfl⟩ : ∃ r, rounds = r + 1 := ⟨rounds - 1, by omega⟩
    exact congrArg (· + 1) (countLevels_zero r)
  | succ k ih =>
    obtain ⟨r, rfl⟩ : ∃ r, rounds = r + 1 := ⟨rounds - 1, by omega⟩
    have hlt : 2 ^ (k + 1) < 2 ^ 32 := Shape.two_pow_lt hk
    have hpos : 0 < UInt32.ofNat (2 ^ (k + 1)) :=
      (Word.ofNat_lt (by norm_num) hlt).mpr (Nat.two_pow_pos _)
    have hshift : UInt32.ofNat (2 ^ (k + 1)) >>> 1 = UInt32.ofNat (2 ^ k) := by
      have := Word.ofNat_shiftRight (k := 1) (by omega) hlt
      rwa [pow_one, pow_succ, Nat.mul_div_cancel _ (by omega)] at this
    rw [countLevels, if_pos hpos, hshift, ih (by omega) (by omega)]

theorem foldl_nodes {k : ℕ} (hk : k ≤ 32) :
    (List.range k).foldl (fun nodes i => nodes + 1 <<< UInt32.ofNat i) (0 : UInt32) =
      UInt32.ofNat (2 ^ k - 1) := by
  induction k with
  | zero => rfl
  | succ k ih =>
    have hshift : (1 : UInt32) <<< UInt32.ofNat k = UInt32.ofNat (2 ^ k) := by
      have := Word.ofNat_shiftLeft (a := 1) (k := k) (by omega)
        (by rw [one_mul]; exact Shape.two_pow_lt (by omega))
      rwa [one_mul] at this
    have hpos := Nat.one_le_two_pow (n := k)
    rw [List.range_succ, List.foldl_append, ih (by omega), List.foldl_cons, List.foldl_nil, hshift,
      ← UInt32.ofNat_add]
    congr 1
    rw [pow_succ]
    omega

theorem calcMaxNodes_two_pow {k : ℕ} (hpos : 0 < k) (hk : k ≤ 32) :
    calcMaxNodes k = .ok (UInt32.ofNat (2 ^ k - 1)) := by
  rw [calcMaxNodes, if_neg, foldl_nodes hk]
  unfold MAX_LEVELS
  omega

namespace Shape
variable (S : Shape)

theorem levels_le : S.levels ≤ 32 := by
  have := S.top_lt
  unfold levels depth
  omega

theorem two_pow_ne_zero {k : ℕ} (hk : k < 32) : UInt32.ofNat (2 ^ k) ≠ 0 := by
  rw [Ne, show (0 : UInt32) = UInt32.ofNat 0 from rfl, Word.ofNat_inj (two_pow_lt hk) (by norm_num)]
  exact (Nat.two_pow_pos k).ne'

theorem calcNumOfLevels_eq : calcNumOfLevels S.total S.minBlock = .ok S.levels := by
  have ht := two_pow_lt S.top_lt
  have hb := two_pow_lt (S.bottom_le.trans_lt S.top_lt)
  have hne : S.minBlock ≠ 0 := two_pow_ne_zero (S.bottom_le.trans_lt S.top_lt)
  have hlt : S.top - S.bottom < 32 := (Nat.sub_le _ _).trans_lt S.top_lt
  rw [calcNumOfLevels, if_neg hne, total, minBlock, Word.ofNat_div ht hb,
    Nat.pow_div S.bottom_le (by omega), countLevels_two_pow hlt hlt]
  rfl

theorem calcMaxNodes_eq : calcMaxNodes S.levels = .ok (UInt32.ofNat S.slots) :=
  calcMaxNodes_two_pow (Nat.succ_pos _) S.levels_le

/-- The configurations that pass the tests of `buddy_alloc_create` are those of the trees. -/
theorem accepted_iff {total minb : UInt32} :
    (¬ (minb = 0 ∨ total = 0 ∨ total &&& (total - 1) ≠ 0 ∨ minb &&& (minb - 1) ≠ 0) ∧
      ¬ total < minb) ↔ ∃ S : Shape, total = S.total ∧ minb = S.minBlock := by
  push Not
  constructor
  · rintro ⟨⟨hm, ht, htp, hmp⟩, hle⟩
    obtain ⟨t, ht32, rfl⟩ := (Word.and_sub_one_eq_zero ht).mp htp
    obtain ⟨m, hm32, rfl⟩ := (Word.and_sub_one_eq_zero hm).mp hmp
    rw [Word.ofNat_lt (two_pow_lt ht32) (two_pow_lt hm32), not_lt] at hle
    exact ⟨⟨t, m, (Nat.pow_le_pow_iff_right (by omega)).mp hle, ht32⟩, rfl, rfl⟩
  · rintro ⟨S, rfl, rfl⟩
    have hlt := S.bottom_le.trans_lt S.top_lt
    have ht := two_pow_ne_zero S.top_lt
    have hm := two_pow_ne_zero hlt
    refine ⟨⟨hm, ht, ?_, ?_⟩, ?_⟩
    · exact (Word.and_sub_one_eq_zero ht).mpr ⟨S.top, S.top_lt, rfl⟩
    · exact (Word.and_sub_one_eq_zero hm).mpr ⟨S.bottom, hlt, rfl⟩
    · rw [total, minBlock, Word.ofNat_lt (two_pow_lt S.top_lt) (two_pow_lt hlt), not_lt]
      exact Nat.pow_le_pow_right (by omega) S.bottom_le

theorem slots_ne_zero : UInt32.ofNat S.slots ≠ 0 := by
  rw [Ne, show (0 : UInt32) = UInt32.ofNat 0 from rfl, Word.ofNat_inj slots_lt (by norm_num)]
  have := slot_lt S.has_root
  omega

theorem levels_le_max : ¬ MAX_LEVELS < S.levels := by
  have := S.levels_le
  unfold MAX_LEVELS
  omega

/-- `mem_pool_create` accepts the number and the size of the slots. -/
theorem pool_not_empty : ¬ (UInt32.ofNat S.slots = 0 ∨ sizeofBuddyAllocBlock = 0) := by
  simp [S.slots_ne_zero, sizeofBuddyAllocBlock]

end Shape

/-- An allocator that `calloc` has just made, with its header filled in. -/
structure Zeroed (S : Shape) (b : BuddyAlloc) : Prop where
  header : b.header = (S.minBlock, S.levels, UInt32.ofNat S.slots)
  block : ∀ p, b.block p = .zero
  heads : ∀ l, b.freeList l = none

/-- What `buddy_alloc_create` makes: a zeroed allocator to which the whole pool is added. -/
def Made (S : Shape) (b : BuddyAlloc) : Prop :=
  ∃ z, Zeroed S z ∧ (createNewBlock 0 0 S.total >>= linkedListAddBlock).run z = .ok () b

section Made
variable {S : Shape} {b : BuddyAlloc}

theorem Shape.offset_root : UInt32.ofNat (S.offset Node.root) = 0 := by
  rw [offset, show Node.root.index = 0 from rfl, Nat.zero_mul]
  rfl

theorem Zeroed.shows (h : Zeroed S b) : Shows S b Pool.empty where
  header := h.header
  free n hn := by simp [Pool.mem_freeNodes, Pool.empty] at hn
  used n hn := by simp [Pool.empty] at hn
  vacant n _ _ _ := by rw [h.block]; rfl
  lists := by
    refine ⟨fun l => ?_, fun l => by simp [Pool.empty], fun i j _ => by simp [Pool.empty]⟩
    rw [h.heads]
    exact ⟨none, rfl, rfl⟩

theorem Zeroed.exists_made (h : Zeroed S b) :
    ∃ b', (createNewBlock 0 0 S.total >>= linkedListAddBlock).run b = .ok () b' ∧
      Shows S b' Pool.initial := by
  obtain ⟨b₁, b₂, hnew, hadd, hshow⟩ := h.shows.push (Pool.Inv.empty S.depth) S.has_root
    (by simp [Pool.mem_freeNodes, Pool.empty]) (by simp [Pool.empty])
  rw [Shape.offset_root] at hnew
  refine ⟨b₂, ?_, hshow⟩
  rw [EStateM.run_bind, show createNewBlock 0 0 S.total = createNewBlock Node.root.level 0
    (UInt32.ofNat (S.size Node.root.level)) from rfl, hnew]
  exact hadd

theorem Made.shows (h : Made S b) : Shows S b Pool.initial := by
  obtain ⟨z, hz, hrun⟩ := h
  obtain ⟨b', hrun', hshow⟩ := hz.exists_made
  rw [hrun'] at hrun
  cases hrun
  exact hshow

end Made

/-! ### What stays where it is -/

/-- Where the parts of an allocator are in memory, and how large its slots are. -/
def BuddyAlloc.placement (b : BuddyAlloc) : ℕ × ℕ × Option ℕ × UInt32 :=
  (b.addr, b.memPool.addr, b.memPool.elementsAddr, b.memPool.sizeOfElement)

theorem createNewBlock_placement (level : ℕ) (offset blockSize : UInt32) (b : BuddyAlloc) :
    Leaves (fun _ c => c.placement = b.placement) (fun c => c.placement = b.placement)
      ((createNewBlock level offset blockSize).run b) := by
  simp only [createNewBlock, EStateM.run_bind, EStateM.run_get]
  cases memPoolGetBlock b.memPool (calcBuddyAllocatorSlot offset level blockSize) with
  | error e => rfl
  | ok p =>
    dsimp only
    by_cases ha : (b.block p).isActive = true
    · rw [if_pos ha]
      rfl
    · rw [if_neg ha]
      rfl

theorem linkedListAddBlock_placement (p : ℕ) (b : BuddyAlloc) :
    Leaves (fun _ c => c.placement = b.placement) (fun c => c.placement = b.placement)
      ((linkedListAddBlock p).run b) := by
  simp only [linkedListAddBlock, run_modify, Leaves]
  cases b.freeList (b.block p).level <;> rfl

theorem addWholePool_placement (total : UInt32) (b : BuddyAlloc) :
    Leaves (fun _ c => c.placement = b.placement) (fun c => c.placement = b.placement)
      ((createNewBlock 0 0 total >>= linkedListAddBlock).run b) := by
  apply (createNewBlock_placement 0 0 total b).bind
  intro p c hc
  rw [← hc]
  exact linkedListAddBlock_placement p c

theorem memPoolCreate_run (cfg : MemPoolCfg) (heap : Heap)
    (hz : ¬ (cfg.numElements = 0 ∨ cfg.elementSize = 0)) :
    (memPoolCreate cfg).run heap =
      if heap.grant heap.requests then
        if heap.grant (heap.requests + 1) then
          .ok (.ok (), some ⟨heap.requests, some (heap.requests + 1), fun _ => .zero,
              cfg.numElements, cfg.elementSize⟩)
            { heap with
              requests := heap.requests + 2
              events := .alloc (heap.requests + 1) :: .alloc heap.requests :: heap.events }
        else
          .ok (.error .ENOMEM, some ⟨heap.requests, none, fun _ => .zero, 0, 0⟩)
            { heap with
              requests := heap.requests + 2
              events := .release heap.requests :: .alloc heap.requests :: heap.events }
      else .ok (.error .ENOMEM, none) { heap with requests := heap.requests + 1 } := by
  unfold memPoolCreate
  rw [if_neg hz]
  cases h1 : heap.grant heap.requests <;>
    cases h2 : heap.grant (heap.requests + 1) <;>
    simp [request_run, release, h1, h2]

/-- The allocator before the whole pool is added, made by the requests from number `n` on. -/
def Shape.zeroed (S : Shape) (n : ℕ) : BuddyAlloc where
  addr := n
  minBlockSize := S.minBlock
  numOfLevels := S.levels
  memPool := ⟨n + 1, some (n + 2), fun _ => .zero, UInt32.ofNat S.slots, sizeofBuddyAllocBlock⟩
  freeList := fun _ => none

theorem Shape.zeroed_zeroed (S : Shape) (n : ℕ) : Zeroed S (S.zeroed n) :=
  ⟨rfl, fun _ => rfl, fun _ => rfl⟩

/-- A configuration with the sizes of a tree is accepted, and the allocator is made if the
three objects it needs are granted. -/
theorem buddyAllocCreate_run (S : Shape) (heap : Heap) :
    if heap.grant heap.requests ∧ heap.grant (heap.requests + 1) ∧
        heap.grant (heap.requests + 2) then
      ∃ b heap', (buddyAllocCreate ⟨S.total, S.minBlock⟩).run heap = .ok b heap' ∧
        (createNewBlock 0 0 S.total >>= linkedListAddBlock).run (S.zeroed heap.requests) = .ok () b
    else ∃ heap', (buddyAllocCreate ⟨S.total, S.minBlock⟩).run heap = .error .ENOMEM heap' := by
  obtain ⟨hsizes, hle⟩ := Shape.accepted_iff.mpr ⟨S, rfl, rfl⟩
  have hmax := S.levels_le_max
  have hnodes := S.pool_not_empty
  unfold buddyAllocCreate
  simp only [if_neg hsizes, if_neg hle, S.calcNumOfLevels_eq, if_neg hmax, S.calcMaxNodes_eq,
    EStateM.run_bind, request_run]
  cases hg : heap.grant heap.requests with
  | false => exact ⟨_, rfl⟩
  | true =>
    simp only [if_true, EStateM.run_bind, true_and,
      memPoolCreate_run ⟨sizeofBuddyAllocBlock, UInt32.ofNat S.slots⟩ _ hnodes]
    cases h1 : heap.grant (heap.requests + 1) with
    | false => exact ⟨_, rfl⟩
    | true =>
      cases h2 : heap.grant (heap.requests + 1 + 1) with
      | false => exact ⟨_, rfl⟩
      | true =>
        obtain ⟨b, hrun, -⟩ := (S.zeroed_zeroed heap.requests).exists_made
        rw [EStateM.run_bind] at hrun
        unfold Shape.zeroed at hrun
        simp only [if_true, Shape.zeroed, hrun]
        exact ⟨b, _, rfl, rfl⟩

theorem buddyAllocCreate_zeroed {cfg : BuddyAllocCfg} {heap heap' : Heap} {b : BuddyAlloc}
    (h : (buddyAllocCreate cfg).run heap = .ok b heap') :
    ∃ S : Shape, cfg.totalMemPoolSize = S.total ∧ cfg.minBlockSize = S.minBlock ∧
      (createNewBlock 0 0 S.total >>= linkedListAddBlock).run (S.zeroed heap.requests) =
        .ok () b := by
  have haccepted : ∃ S : Shape, cfg.totalMemPoolSize = S.total ∧ cfg.minBlockSize = S.minBlock := by
    rw [← Shape.accepted_iff]
    unfold buddyAllocCreate at h
    dsimp only at h
    constructor
    · intro hbad
      rw [if_pos hbad] at h
      cases h
    · intro hlt
      rw [if_pos hlt] at h
      split_ifs at h <;> cases h
  obtain ⟨S, hS, hS'⟩ := haccepted
  have hrun := buddyAllocCreate_run S heap
  rw [← hS, ← hS', h] at hrun
  split_ifs at hrun
  · obtain ⟨c, heap₁, heq, hadd⟩ := hrun
    cases heq
    refine ⟨S, hS, hS', ?_⟩
    rw [← hS]
    exact hadd
  · obtain ⟨heap₁, heq⟩ := hrun
    cases heq

/-- An allocator that was created has the sizes of a tree. -/
theorem buddyAllocCreate_ok {cfg : BuddyAllocCfg} {heap heap' : Heap} {b : BuddyAlloc}
    (h : (buddyAllocCreate cfg).run heap = .ok b heap') :
    ∃ S : Shape, cfg.totalMemPoolSize = S.total ∧ cfg.minBlockSize = S.minBlock ∧
      Made S b := by
  obtain ⟨S, ht, hm, hadd⟩ := buddyAllocCreate_zeroed h
  exact ⟨S, ht, hm, _, S.zeroed_zeroed _, hadd⟩

end FileTransfer
