import FileTransfer.BuddyAllocator.RoundTrip
import FileTransfer.BuddyAllocator.PoolSession

/-! Requests and their releases over the words of a pool of at most 27 levels, and what becomes of
them where the slots overlap. -/
namespace FileTransfer.PoolMemory
open Agreement Bisection Run

/-- The result of a request as the slots show it. -/
def viewResult : EStateM.Result Errno BuddyAlloc ℕ → EStateM.Result Errno FileTransfer.BuddyAlloc ℕ
  | .ok p b => .ok ((b.memPool.slotAt p).getD b.memPool.numOfElements.toNat) b.slots
  | .error e b => .error e b.slots

theorem viewResult_eq {A : Layout} {x : EStateM.Result Errno BuddyAlloc ℕ}
    {y : EStateM.Result Errno FileTransfer.BuddyAlloc ℕ}
    (h : Agree (Encodes A) (fun p i => A.Pointer p (some i)) x y) : viewResult x = y := by
  cases h with
  | ok henc hp =>
    rw [viewResult, henc.slotAt_eq hp, henc.slots_eq]
    rfl
  | error henc => rw [viewResult, henc.slots_eq]

namespace AllocSession
variable {elementsArray : Location} {cfg : BuddyAllocCfg} {heap heap' : Heap} {b : BuddyAlloc}
  {s : AllocSession}

/-- A request that is not too small is served exactly if there is room for it. -/
theorem request_answered (hc : (buddyAllocCreate elementsArray cfg).run heap = .ok b heap')
    (hfits : cfg.totalMemPoolSize.toNat ≤ 2 ^ 26 * cfg.minBlockSize.toNat)
    (hr : Reach onLive exec (start b) s) {blockSize : UInt32}
    (hlow : cfg.minBlockSize.toNat / 2 < blockSize.toNat)
    (hhigh : blockSize.toNat ≤ cfg.totalMemPoolSize.toNat) :
    blockSize.toNat ≤ (nextPow2 blockSize).toNat ∧
      (nextPow2 blockSize).toNat < 2 * blockSize.toNat ∧
      s.view.Answered cfg.totalMemPoolSize.toNat (nextPow2 blockSize).toNat
        (viewResult ((buddyAllocAllocate blockSize).run s.alloc)) := by
  obtain ⟨S, ht, hm, ⟨A, hlevels, henc⟩, a, h⟩ := view_of_reach hc hfits hr
  rw [hm, Shape.toNat_minBlock] at hlow
  rw [ht, Shape.toNat_total] at hhigh ⊢
  rw [viewResult_eq (henc.alloc.allocate_agree hlevels blockSize)]
  exact h.answer_request hlow hhigh

theorem request_answered_halves : ∃ b heap s,
    (buddyAllocCreate page ⟨1024, 512⟩).run ⟨fun _ => true, 0, []⟩ = .ok b heap ∧
      Reach onLive exec (start b) s ∧ s.returned = [4120, 4144, 4120] ∧
      s.view.Answered 1024 512 (viewResult ((buddyAllocAllocate 400).run s.alloc)) := by
  obtain ⟨b, heap, s, hc, hr, hreturned⟩ : ∃ b heap s,
      (buddyAllocCreate page ⟨1024, 512⟩).run ⟨fun _ => true, 0, []⟩ = .ok b heap ∧
        Reach onLive exec (start b) s ∧ s.returned = [4120, 4144, 4120] :=
    exists_run halves (by decide +kernel)
  have hanswer := request_answered hc (by decide) hr
    (show 512 / 2 < (400 : UInt32).toNat by decide) (by decide)
  exact ⟨b, heap, s, hc, hr, hreturned, hanswer.2.2⟩

/-- In a pool of 28 levels a request for half of the pool follows a link that was overwritten. -/
theorem request_leaves_pool : ∃ b heap s,
    (buddyAllocCreate page ⟨134217728, 1⟩).run ⟨fun _ => true, 0, []⟩ = .ok b heap ∧
      Reach onLive exec (start b) s ∧
      (∃ c, (buddyAllocAllocate 67108864).run s.alloc = .error .outOfBounds c) ∧
      ¬ s.view.Answered 134217728 67108864
        (viewResult ((buddyAllocAllocate 67108864).run s.alloc)) := by
  let ops : List AllocOp := everySecond ++ [.allocate 4, .allocate 1]
  obtain ⟨b, heap, s, hc, hr, hfail⟩ : ∃ b heap s,
      (buddyAllocCreate page ⟨134217728, 1⟩).run ⟨fun _ => true, 0, []⟩ = .ok b heap ∧
        Reach onLive exec (start b) s ∧
        failure ((buddyAllocAllocate 67108864).run s.alloc) = some .outOfBounds :=
    exists_run ops (by decide +kernel)
  obtain ⟨c, hrun⟩ := exists_error_of_failure hfail
  refine ⟨b, heap, s, hc, hr, ⟨c, hrun⟩, ?_⟩
  rw [hrun]
  rintro ⟨-, herr, -⟩
  cases herr

/-! ### Smaller requests -/

theorem allocate_ok_iff {A : Layout} {c : FileTransfer.BuddyAlloc} (h : PoolMemory.Encodes A b c)
    (hlevels : 0 < A.levels) (blockSize : UInt32) :
    (∃ p b', (buddyAllocAllocate blockSize).run b = .ok p b') ↔
      ∃ i c', (FileTransfer.buddyAllocAllocate blockSize).run c = .ok i c' := by
  have hagree := h.allocate_agree hlevels blockSize
  constructor
  · rintro ⟨p, b', hrun⟩
    rw [hrun] at hagree
    obtain ⟨i, c', hrun', -⟩ := hagree.exists_right
    exact ⟨i, c', hrun'⟩
  · rintro ⟨i, c', hrun⟩
    rw [hrun] at hagree
    obtain ⟨p, b', hrun', -⟩ := hagree.exists_left
    exact ⟨p, b', hrun'⟩

/-- Where a request is served, a smaller one is, down to half of a smallest block. -/
theorem smaller_request_served (hc : (buddyAllocCreate elementsArray cfg).run heap = .ok b heap')
    (hfits : cfg.totalMemPoolSize.toNat ≤ 2 ^ 26 * cfg.minBlockSize.toNat)
    (hr : Reach onLive exec (start b) s) {small large : UInt32}
    (hlow : cfg.minBlockSize.toNat / 2 < small.toNat) (hle : small ≤ large)
    (hlarge : ∃ p b', (buddyAllocAllocate large).run s.alloc = .ok p b') :
    ∃ p b', (buddyAllocAllocate small).run s.alloc = .ok p b' := by
  obtain ⟨S, -, hm, ⟨A, hlevels, henc⟩, a, h⟩ := view_of_reach hc hfits hr
  rw [hm, Shape.toNat_minBlock] at hlow
  rw [allocate_ok_iff henc.alloc hlevels] at hlarge ⊢
  exact h.serve_smaller hlow hle hlarge

theorem smaller_request_served_halves : ∃ b heap s,
    (buddyAllocCreate page ⟨1024, 512⟩).run ⟨fun _ => true, 0, []⟩ = .ok b heap ∧
      Reach onLive exec (start b) s ∧ s.returned = [4120, 4144, 4120] ∧
      ∃ p b', (buddyAllocAllocate 257).run s.alloc = .ok p b' := by
  obtain ⟨b, heap, s, hc, hr, hreturned, hlarge⟩ : ∃ b heap s,
      (buddyAllocCreate page ⟨1024, 512⟩).run ⟨fun _ => true, 0, []⟩ = .ok b heap ∧
        Reach onLive exec (start b) s ∧ s.returned = [4120, 4144, 4120] ∧
        Leaves (fun p _ => p = 4144) (fun _ => False) ((buddyAllocAllocate 500).run s.alloc) :=
    exists_run halves (by decide +kernel)
  obtain ⟨p, b', hrun, -⟩ := hlarge.exists_ok
  exact ⟨b, heap, s, hc, hr, hreturned,
    smaller_request_served hc (by decide) hr (by decide) (by decide) ⟨p, b', hrun⟩⟩

/-- A request for less than half of a smallest block fails where a larger one is served. -/
theorem tiny_request_refused : ∃ b heap s,
    (buddyAllocCreate page ⟨1024, 512⟩).run ⟨fun _ => true, 0, []⟩ = .ok b heap ∧
      Reach onLive exec (start b) s ∧
      (∃ p b', (buddyAllocAllocate 512).run s.alloc = .ok p b') ∧
      ∃ b', (buddyAllocAllocate 1).run s.alloc = .error .EINVAL b' := by
  obtain ⟨b, heap, s, hc, hr, hlarge, hsmall⟩ : ∃ b heap s,
      (buddyAllocCreate page ⟨1024, 512⟩).run ⟨fun _ => true, 0, []⟩ = .ok b heap ∧
        Reach onLive exec (start b) s ∧
        Leaves (fun p _ => p = 4120) (fun _ => False) ((buddyAllocAllocate 512).run s.alloc) ∧
        failure ((buddyAllocAllocate 1).run s.alloc) = some .EINVAL :=
    exists_run [] (by decide +kernel)
  obtain ⟨p, b', hrun, -⟩ := hlarge.exists_ok
  exact ⟨b, heap, s, hc, hr, ⟨p, b', hrun⟩, exists_error_of_failure hsmall⟩

/-! ### A release at once -/

/-- What a request hands out, its release takes back, and repeating it hands out the same. -/
theorem free_undoes_allocate (hc : (buddyAllocCreate elementsArray cfg).run heap = .ok b heap')
    (hfits : cfg.totalMemPoolSize.toNat ≤ 2 ^ 26 * cfg.minBlockSize.toNat)
    (hr : Reach onLive exec (start b) s) {blockSize : UInt32} {p : ℕ} {b₁ : BuddyAlloc}
    (hrun : (buddyAllocAllocate blockSize).run s.alloc = .ok p b₁) :
    ∃ b₂, (buddyAllocFree p).run b₁ = .ok () b₂ ∧ s.alloc.slots.SameLists b₂.slots ∧
      ((s.allocated b₁ p).freed b₂ p).live = s.live ∧
      ∃ b₃ offset, (buddyAllocAllocate blockSize).run b₂ = .ok p b₃ ∧
        (buddyAllocGetBlockOffset p).run b₁ = .ok offset b₁ ∧
        (buddyAllocGetBlockOffset p).run b₃ = .ok offset b₃ := by
  obtain ⟨S, -, -, ⟨A, hlevels, henc⟩, a, h⟩ := view_of_reach hc hfits hr
  have hagree := henc.alloc.allocate_agree hlevels blockSize
  rw [hrun] at hagree
  obtain ⟨i, c₁, hrun', e₁, hi, rfl⟩ := hagree.exists_right
  obtain ⟨c₂, hfree, hlists, hlive, c₃, hagain, hoffset⟩ := h.undo_allocate hrun'
  have hfreed := e₁.free_agree hi
  rw [hfree] at hfreed
  obtain ⟨_, b₂, hb₂, e₂, -⟩ := hfreed.exists_left
  have hserved := e₂.allocate_agree hlevels blockSize
  rw [hagain] at hserved
  obtain ⟨_, b₃, hb₃, e₃, -, rfl⟩ := hserved.exists_left
  refine ⟨b₂, hb₂, ?_, ?_, b₃, (c₁.block i).offset, hb₃, e₁.getOffset_run hi, ?_⟩
  · rwa [e₂.slots_eq]
  · have hnew : s.live (A.address i) = none := by
      have hat := congrFun hlive i
      rw [henc.live i hi, ← hat]
      exact Function.update_self ..
    funext q
    dsimp only [allocated, freed]
    by_cases hq : q = A.address i
    · rw [if_pos hq, hq, hnew]
    · rw [if_neg hq, if_neg hq]
  · have hlast := e₃.getOffset_run hi
    rwa [show (c₃.block i).offset = (c₁.block i).offset from hoffset] at hlast

theorem free_undoes_allocate_halves : ∃ b heap s p b₁ b₂,
    (buddyAllocCreate page ⟨1024, 512⟩).run ⟨fun _ => true, 0, []⟩ = .ok b heap ∧
      Reach onLive exec (start b) s ∧ s.returned = [4120, 4144, 4120] ∧
      (buddyAllocAllocate 500).run s.alloc = .ok p b₁ ∧
      (buddyAllocFree p).run b₁ = .ok () b₂ ∧ s.alloc.slots.SameLists b₂.slots := by
  obtain ⟨b, heap, s, hc, hr, hreturned, hserved⟩ : ∃ b heap s,
      (buddyAllocCreate page ⟨1024, 512⟩).run ⟨fun _ => true, 0, []⟩ = .ok b heap ∧
        Reach onLive exec (start b) s ∧ s.returned = [4120, 4144, 4120] ∧
        Leaves (fun p _ => p = 4144) (fun _ => False) ((buddyAllocAllocate 500).run s.alloc) :=
    exists_run halves (by decide +kernel)
  obtain ⟨p, b₁, hrun, -⟩ := hserved.exists_ok
  obtain ⟨b₂, hfree, hlists, -⟩ := free_undoes_allocate hc (by decide) hr hrun
  exact ⟨b, heap, s, p, b₁, b₂, hc, hr, hreturned, hrun, hfree, hlists⟩

/-- A walk along a list that starts in a slot has one step exactly if the link there is NULL. -/
theorem walk_from_slot {b : BuddyAlloc} {l v i : ℕ} (hl : l < b.numOfLevels)
    (hi : i < b.memPool.numOfElements.toNat) (haddr : b.memPool.address i = v) (hv : v ≠ 0)
    (hhead : b.freeList l = v) {xs : List ℕ} (h : b.slots.Walk (b.slots.freeList l) xs) :
    xs.length = 1 ↔ b.memPool.words v = 0 := by
  obtain ⟨k, hk, hkaddr, hslot⟩ := MemPool.exists_slotAt hv hi haddr
  have hfirst : b.slots.freeList l = some k := by
    rw [← hslot, ← hhead]
    exact if_pos hl
  rw [hfirst] at h
  cases h with
  | cons hrest =>
    rw [b.next_slots hk, hkaddr] at hrest
    constructor
    · intro hone
      rw [List.length_cons, Nat.add_eq_right, List.length_eq_zero_iff] at hone
      subst hone
      generalize hnext : b.memPool.slotAt (b.memPool.words v) = q at hrest
      cases hrest
      exact MemPool.slotAt_eq_none hnext
    · intro hnull
      rw [hnull] at hrest
      cases hrest
      rfl

/-- The list of level one starts at the second of the slots behind the first. -/
def HeadIsSlotTwo (b : BuddyAlloc) : Prop :=
  1 < b.numOfLevels ∧ 2 < b.memPool.numOfElements.toNat ∧ b.memPool.address 2 = 4144 ∧
    b.freeList 1 = 4144

instance (b : BuddyAlloc) : Decidable (HeadIsSlotTwo b) :=
  inferInstanceAs (Decidable (_ ∧ _ ∧ _ ∧ _))

/-- In a pool of 28 levels a block is handed out and freed at once, and the link of a free block
that was overwritten in between is not restored. -/
theorem free_leaves_link : ∃ b heap s p b₁ b₂,
    (buddyAllocCreate page ⟨134217728, 1⟩).run ⟨fun _ => true, 0, []⟩ = .ok b heap ∧
      Reach onLive exec (start b) s ∧ (buddyAllocAllocate 1).run s.alloc = .ok p b₁ ∧
      (buddyAllocFree p).run b₁ = .ok () b₂ ∧ s.alloc.memPool.words 4144 = 0 ∧
      b₂.memPool.words 4144 = 116008856237 ∧ ¬ s.alloc.slots.SameLists b₂.slots := by
  let ops : List AllocOp := everySecond ++ [.allocate 4]
  obtain ⟨b, heap, s, hc, hr, ⟨hl, hslot, haddr, hhead⟩, hnull, hserved⟩ : ∃ b heap s,
      (buddyAllocCreate page ⟨134217728, 1⟩).run ⟨fun _ => true, 0, []⟩ = .ok b heap ∧
        Reach onLive exec (start b) s ∧ HeadIsSlotTwo s.alloc ∧ s.alloc.memPool.words 4144 = 0 ∧
        Leaves (fun p b₁ => Leaves (fun _ b₂ => HeadIsSlotTwo b₂ ∧
            b₂.memPool.words 4144 = 116008856237) (fun _ => False) ((buddyAllocFree p).run b₁))
          (fun _ => False) ((buddyAllocAllocate 1).run s.alloc) :=
    exists_run ops (by decide +kernel)
  obtain ⟨p, b₁, hrun, hfreed⟩ := hserved.exists_ok
  obtain ⟨_, b₂, hfree, ⟨hl₂, hslot₂, haddr₂, hhead₂⟩, hwild⟩ := hfreed.exists_ok
  refine ⟨b, heap, s, p, b₁, b₂, hc, hr, hrun, hfree, hnull, hwild, fun hsame => ?_⟩
  obtain ⟨xs, hbefore, hafter, -⟩ := hsame 1
  have hone := (walk_from_slot hl hslot haddr (by decide) hhead hbefore).mpr hnull
  rw [walk_from_slot hl₂ hslot₂ haddr₂ (by decide) hhead₂ hafter, hwild] at hone
  exact absurd hone (by decide)

end AllocSession
end FileTransfer.PoolMemory
