import FileTransfer.Foundation.BuddyRoom
import FileTransfer.BuddyAllocator.Counting
import FileTransfer.BuddyAllocator.Requests

/-! How full a pool may be when a request is served for certain, whatever the order in which its
blocks came and went. -/
namespace FileTransfer
open Bisection Run

namespace AllocSession

def liveSlots (s : AllocSession) : Finset ℕ :=
  {p ∈ Finset.range s.alloc.memPool.numOfElements.toNat | s.live p ≠ none}

/-- The bytes that the live blocks can keep from requests for `size` bytes. A smaller block keeps
all the `size` bytes that it lies in. -/
def taken (s : AllocSession) (size : ℕ) : ℕ := ∑ p ∈ s.liveSlots, max (s.liveSize p) size

/-- The request is served. -/
def Serves (s : AllocSession) (blockSize : UInt32) : Prop :=
  ∃ p b, (buddyAllocAllocate blockSize).run s.alloc = .ok p b

section Taken
variable {S : Shape} {s : AllocSession} {a : Pool} {l : ℕ} {n : Node}

theorem taken_congr {size : ℕ} (h : ∀ p ∈ s.liveSlots, size ≤ s.liveSize p) :
    s.taken size = s.taken 0 := by
  apply Finset.sum_congr rfl
  intro p hp
  rw [max_eq_left (h p hp), max_eq_left (Nat.zero_le _)]

theorem taken_eq_card {size : ℕ} (h : ∀ p ∈ s.liveSlots, s.liveSize p = size) :
    s.taken 0 = s.liveSlots.card * size := by
  unfold taken
  apply Finset.sum_const_nat
  intro p hp
  rw [h p hp, max_eq_left (Nat.zero_le _)]

theorem taken_zero : s.taken 0 =
    ∑ p ∈ Finset.range s.alloc.memPool.numOfElements.toNat, s.liveSize p := by
  unfold taken liveSlots
  rw [Finset.sum_filter]
  apply Finset.sum_congr rfl
  intro p _
  unfold liveSize
  cases s.live p with
  | none => rfl
  | some r => simp

theorem two_pow_top (hl : l ≤ S.depth) : 2 ^ S.top = 2 ^ l * S.size l := by
  have hdepth : S.depth ≤ S.top := Nat.sub_le _ _
  have hsum : l + (S.top - l) = S.top := by omega
  unfold Shape.size
  rw [← pow_add, hsum]

namespace Shows

theorem mem_liveSlots (h : Shows S s a) {p : ℕ} :
    p ∈ s.liveSlots ↔ ∃ n ∈ a.used, slotOf n = p := by
  unfold liveSlots
  rw [Finset.mem_filter]
  constructor
  · intro hp
    exact h.exists_used hp.2
  · intro hp
    obtain ⟨n, hn, rfl⟩ := hp
    have hlive : s.live (slotOf n) ≠ none := by
      rw [h.live_used hn]
      exact Option.some_ne_none _
    exact ⟨Finset.mem_range.mpr (h.active_of_live hlive).1, hlive⟩

theorem liveSize_eq (h : Shows S s a) (hn : n ∈ a.used) :
    s.liveSize (slotOf n) = S.size n.level := by
  unfold liveSize
  rw [h.live_used hn]
  exact h.alloc.blockSize_eq (Inv_has h.inv (Or.inr hn)).2

/-- A block keeps as many blocks of the level as its node has places there. -/
theorem max_liveSize (h : Shows S s a) (hl : l ≤ S.depth) (hn : n ∈ a.used) :
    max (s.liveSize (slotOf n)) (S.size l) = 2 ^ (l - n.level) * S.size l := by
  have hdepth : S.depth ≤ S.top := Nat.sub_le _ _
  rw [h.liveSize_eq hn]
  unfold Shape.size
  rcases le_total n.level l with hle | hle
  · have hsum : S.top - n.level = l - n.level + (S.top - l) := by omega
    rw [max_eq_left, ← pow_add, hsum]
    exact Nat.pow_le_pow_right (by omega) (by omega)
  · rw [max_eq_right, Nat.sub_eq_zero_of_le hle, pow_zero, one_mul]
    exact Nat.pow_le_pow_right (by omega) (by omega)

theorem taken_eq (h : Shows S s a) (hl : l ≤ S.depth) :
    s.taken (S.size l) = (∑ p ∈ s.liveSlots, 2 ^ (l - (nodeAt p).level)) * S.size l := by
  unfold taken
  rw [Finset.sum_mul]
  apply Finset.sum_congr rfl
  intro p hp
  obtain ⟨n, hn, rfl⟩ := h.mem_liveSlots.mp hp
  rw [h.max_liveSize hl hn, nodeAt_slotOf (Inv_has h.inv (Or.inr hn)).1]

/-- There is room on a level as long as one of its blocks is not taken. -/
theorem alloc_ne_none_of_taken (h : Shows S s a) (hl : l ≤ S.depth)
    (htaken : s.taken (S.size l) + S.size l ≤ 2 ^ S.top) : a.alloc l ≠ none := by
  have hused : ∀ u ∈ a.used, ∃ p ∈ s.liveSlots, nodeAt p = u := by
    intro u hu
    exact ⟨slotOf u, h.mem_liveSlots.mpr ⟨u, hu, rfl⟩,
      nodeAt_slotOf (Inv_has h.inv (Or.inr hu)).1⟩
  apply h.inv.alloc_ne_none_of_sum hl hused
  rw [h.taken_eq hl, two_pow_top hl, ← Nat.succ_mul] at htaken
  exact Nat.le_of_mul_le_mul_right htaken (S.size_pos l)

/-- The live blocks and the free ones make up the pool. -/
theorem taken_add_free (h : Shows S s a) :
    s.taken 0 + ∑ p ∈ s.activeSlots with ¬ (s.alloc.block p).isAllocated = true,
      s.alloc.blockSize (s.alloc.block p).level = 2 ^ S.top := by
  rw [taken_zero, h.blocksTile.sum_live, Finset.sum_filter_add_sum_filter_not]
  exact h.blocksTile.sum_active

/-- A block that is handed out was not live. -/
theorem taken_le_of_alloc (h : Shows S s a) (hroom : a.alloc l ≠ none) :
    s.taken 0 + S.size l ≤ 2 ^ S.top := by
  rw [ne_eq, Pool.alloc_eq_none_iff] at hroom
  push Not at hroom
  obtain ⟨k, hk, hne⟩ := hroom
  obtain ⟨f, hf⟩ := List.exists_mem_of_ne_nil _ hne
  have hfk : f.level = k := h.inv.level_eq k f hf
  have hfree : f ∈ a.freeNodes := by rwa [Pool.mem_freeNodes, hfk]
  have hf' : f ∈ a.freeNodes ∪ a.used := Or.inl hfree
  have hnot : f ∉ a.used := Set.disjoint_left.mp h.inv.disjoint hfree
  have hmem : slotOf f ∈ {p ∈ s.activeSlots | ¬ (s.alloc.block p).isAllocated = true} := by
    rw [Finset.mem_filter, mem_activeSlots, h.alloc.isAllocated_iff hf']
    exact ⟨(h.alloc.active_iff h.inv).mpr ⟨f, hf', rfl⟩, hnot⟩
  have hsize : S.size l ≤ s.alloc.blockSize (s.alloc.block (slotOf f)).level := by
    rw [(h.alloc.block_eq hf').2, h.alloc.blockSize_eq (Inv_has h.inv hf').2, hfk]
    exact Nat.pow_le_pow_right (by omega) (by omega)
  have hterm := Finset.single_le_sum
    (f := fun p => s.alloc.blockSize (s.alloc.block p).level) (fun _ _ => Nat.zero_le _) hmem
  rw [← h.taken_add_free]
  exact Nat.add_le_add_left (hsize.trans hterm) _

theorem serves_iff (h : Shows S s a) {blockSize : UInt32}
    (hreq : S.requestLevel blockSize = .ok l) : s.Serves blockSize ↔ a.alloc l ≠ none := by
  unfold Serves
  rw [h.allocate_ok_iff, hreq]
  simp

end Shows
end Taken

/-- A request is served as long as one block of its size is not taken, whatever was allocated and
freed before, and it is not served when the live blocks leave less than that. While no live block
is smaller, nothing is lost to fragmentation: free bytes are bytes that can be had. -/
theorem room_guaranteed {cfg : BuddyAllocCfg} {heap heap' : Heap} {b : BuddyAlloc}
    {s : AllocSession} (hc : (buddyAllocCreate cfg).run heap = .ok b heap')
    (hr : Reach onLive exec (start b) s) {blockSize : UInt32}
    (hlow : cfg.minBlockSize.toNat / 2 < blockSize.toNat)
    (hhigh : blockSize.toNat ≤ cfg.totalMemPoolSize.toNat) :
    let size := (nextPow2 blockSize).toNat
    (s.taken size + size ≤ cfg.totalMemPoolSize.toNat → s.Serves blockSize) ∧
      (s.Serves blockSize → s.taken 0 + size ≤ cfg.totalMemPoolSize.toNat) ∧
      ((∀ p ∈ s.liveSlots, size ≤ s.liveSize p) →
        (s.Serves blockSize ↔ s.taken 0 + size ≤ cfg.totalMemPoolSize.toNat)) := by
  intro size
  obtain ⟨S, ht, hm, a, h⟩ := shows_of_reach hc hr
  have htotal : cfg.totalMemPoolSize.toNat = 2 ^ S.top := by
    rw [ht, Shape.toNat_total]
  rw [hm, Shape.toNat_minBlock] at hlow
  rw [htotal] at hhigh ⊢
  obtain ⟨l, hreq, hsize⟩ := Shape.exists_requestLevel hlow hhigh
  have hl := Shape.requestLevel_le hreq
  have heq : size = S.size l := hsize
  rw [heq, h.serves_iff hreq]
  have hserved := h.alloc_ne_none_of_taken hl
  have hrefused := h.taken_le_of_alloc (l := l)
  refine ⟨hserved, hrefused, fun hlarge => ⟨hrefused, ?_⟩⟩
  rw [← taken_congr hlarge]
  exact hserved

theorem room_guaranteed_halves : ∃ b heap,
    (buddyAllocCreate ⟨1024, 256⟩).run ⟨fun _ => true, 0, []⟩ = .ok b heap ∧
      ((start b).exec (.allocate 200)).Serves 512 := by
  obtain ⟨b, heap, hc, htaken⟩ : ∃ b heap,
      (buddyAllocCreate ⟨1024, 256⟩).run ⟨fun _ => true, 0, []⟩ = .ok b heap ∧
        ((start b).exec (.allocate 200)).taken 512 + 512 ≤ 1024 :=
    ⟨_, _, rfl, by decide +kernel⟩
  have hr : Reach onLive exec (start b) ((start b).exec (.allocate 200)) := .step .start _ trivial
  exact ⟨b, heap, hc, (room_guaranteed hc hr (by decide) (by decide)).1 htaken⟩

/-! ### Requests of one size class -/

/-- Every request rounds to the same size. -/
def OfClass (size : UInt32) (s : AllocSession) : AllocOp → Prop
  | .allocate blockSize => nextPow2 blockSize = size
  | .free p => s.live p ≠ none

section Uniform
variable {S : Shape} {s : AllocSession} {a : Pool} {l : ℕ}

theorem requestLevel_of_class {blockSize : UInt32} (hl : l ≤ S.depth)
    (hclass : nextPow2 blockSize = UInt32.ofNat (S.size l)) :
    S.requestLevel blockSize = .ok l :=
  Shape.requestLevel_eq_ok.mpr ⟨hl, Shape.nextPow2_eq_size_iff.mp hclass⟩

/-- All used nodes stay on one level. -/
theorem Shows.exec_class (h : Shows S s a) (hl : l ≤ S.depth) (hlevel : ∀ n ∈ a.used, n.level = l)
    {op : AllocOp} (hop : OfClass (UInt32.ofNat (S.size l)) s op) :
    ∃ a', Shows S (s.exec op) a' ∧ ∀ n ∈ a'.used, n.level = l := by
  cases op with
  | allocate blockSize =>
    have hrun := h.alloc.allocate_run h.inv blockSize
    rw [requestLevel_of_class hl hop] at hrun
    dsimp only at hrun
    cases ha : a.alloc l with
    | none =>
      rw [ha] at hrun
      simp only [exec, hrun]
      exact ⟨a, h, hlevel⟩
    | some r =>
      obtain ⟨t, a'⟩ := r
      rw [ha] at hrun
      obtain ⟨b, hb, hshow⟩ := hrun
      obtain ⟨hinv, htl, -, hused⟩ := h.inv.alloc hl ha
      simp only [exec, hb]
      refine ⟨a', h.allocated hinv hshow hused, ?_⟩
      rw [hused]
      exact Set.forall_mem_insert.mpr ⟨htl, hlevel⟩
  | free p =>
    obtain ⟨n, hn, rfl⟩ := h.exists_used hop
    obtain ⟨b, hb, hshow⟩ := h.alloc.free_run h.inv hn
    obtain ⟨hinv, hused⟩ := h.inv.release hn
    simp only [exec, hb]
    refine ⟨_, h.freed hinv hshow hn hused, ?_⟩
    rw [hused]
    intro m hm
    exact hlevel m hm.1

end Uniform

/-- Under requests of one size class the pool is an array of blocks of that size: as many as it has
are served, in any order with the releases, and no more. -/
theorem uniform_capacity {cfg : BuddyAllocCfg} {heap heap' : Heap} {b : BuddyAlloc}
    {s : AllocSession} (hc : (buddyAllocCreate cfg).run heap = .ok b heap') {size : UInt32}
    (hlow : cfg.minBlockSize ≤ size) (hhigh : size ≤ cfg.totalMemPoolSize)
    (hr : Reach (OfClass size) exec (start b) s) {blockSize : UInt32}
    (hclass : nextPow2 blockSize = size) :
    let blocks := cfg.totalMemPoolSize.toNat / size.toNat
    s.liveSlots.card ≤ blocks ∧ (s.Serves blockSize ↔ s.liveSlots.card < blocks) := by
  intro blocks
  obtain ⟨S, ht, hm, hmade⟩ := buddyAllocCreate_ok hc
  obtain ⟨l, hlevel⟩ : ∃ l, getBlockLevel S.minBlock S.levels (nextPow2 blockSize) = .ok l := by
    rw [Shape.exists_getBlockLevel_iff, hclass, ← ht, ← hm]
    exact ⟨hlow, hhigh⟩
  obtain ⟨hl, hsize⟩ := Shape.getBlockLevel_eq_ok.mp hlevel
  rw [hclass] at hsize
  have hnat : size.toNat = S.size l := by
    rw [hsize, Word.toNat_ofNat (S.size_lt l)]
  have htotal := two_pow_top hl
  have hblocks : blocks = 2 ^ l := by
    change cfg.totalMemPoolSize.toNat / size.toNat = _
    rw [ht, Shape.toNat_total, hnat, htotal, Nat.mul_div_cancel _ (S.size_pos l)]
  obtain ⟨a, h, hused⟩ : ∃ a, Shows S s a ∧ ∀ n ∈ a.used, n.level = l := by
    apply hr.invariant fun s => ∃ a, Shows S s a ∧ ∀ n ∈ a.used, n.level = l
    · refine ⟨Pool.initial, ⟨Pool.Inv.initial S.depth, hmade.shows, fun p r => ?_⟩, ?_⟩
      · simp [start, Pool.initial, Pool.empty]
      · simp [Pool.initial, Pool.empty]
    · intro s op hs hop
      obtain ⟨a, h, hused⟩ := hs
      rw [hsize] at hop
      exact h.exec_class hl hused hop
  have hall : ∀ p ∈ s.liveSlots, s.liveSize p = S.size l := by
    intro p hp
    obtain ⟨n, hn, rfl⟩ := h.mem_liveSlots.mp hp
    rw [h.liveSize_eq hn, hused n hn]
  have htaken : s.taken 0 = s.liveSlots.card * S.size l := taken_eq_card hall
  have hserves : s.Serves blockSize ↔ s.taken 0 + S.size l ≤ 2 ^ S.top := by
    rw [h.serves_iff (requestLevel_of_class hl (hclass.trans hsize))]
    refine ⟨h.taken_le_of_alloc, fun hroom => h.alloc_ne_none_of_taken hl ?_⟩
    rwa [taken_congr fun p hp => (hall p hp).ge]
  have hle : s.taken 0 ≤ 2 ^ S.top := by
    rw [← h.taken_add_free]
    exact Nat.le_add_right _ _
  rw [htaken, htotal] at hle
  rw [htaken, ← Nat.succ_mul, htotal] at hserves
  rw [hserves, hblocks]
  constructor
  · exact Nat.le_of_mul_le_mul_right hle (S.size_pos l)
  · exact Nat.mul_le_mul_right_iff (S.size_pos l)

theorem uniform_capacity_halves : ∃ b heap,
    (buddyAllocCreate ⟨1024, 256⟩).run ⟨fun _ => true, 0, []⟩ = .ok b heap ∧
      (((start b).exec (.allocate 300)).Serves 400 ↔
        ((start b).exec (.allocate 300)).liveSlots.card < 2) := by
  obtain ⟨b, heap, hc⟩ : ∃ b heap,
      (buddyAllocCreate ⟨1024, 256⟩).run ⟨fun _ => true, 0, []⟩ = .ok b heap := ⟨_, _, rfl⟩
  have hclass : nextPow2 300 = 512 := by decide +kernel
  have hr : Reach (OfClass 512) exec (start b) ((start b).exec (.allocate 300)) :=
    .step .start (AllocOp.allocate 300) hclass
  exact ⟨b, heap, hc, (uniform_capacity hc (by decide) (by decide) hr (by decide +kernel)).2⟩

end AllocSession
end FileTransfer
