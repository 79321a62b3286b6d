import FileTransfer.BuddyAllocator.Refinement

/-! The loops and the interface of the allocator, as steps of the pool that it shows. -/
namespace FileTransfer
open Bisection Intrusive

/-- The level at which a request is served. -/
def Shape.requestLevel (S : Shape) (blockSize : UInt32) : Except Errno ℕ :=
  if blockSize = 0 then .error .EINVAL else getBlockLevel S.minBlock S.levels (nextPow2 blockSize)

theorem Shape.requestLevel_le {S : Shape} {blockSize : UInt32} {l : ℕ}
    (h : S.requestLevel blockSize = .ok l) : l ≤ S.depth := by
  unfold Shape.requestLevel getBlockLevel at h
  dsimp only at h
  split_ifs at h
  cases h
  unfold Shape.levels
  omega

namespace Shows
variable {S : Shape} {b : BuddyAlloc} {a : Pool} {n : Node}

theorem head_eq (h : Shows S b a) (l : ℕ) : b.freeList l = (a.free l).head?.map slotOf := by
  rw [(h.lists.isList l).head_eq, List.head?_map]

theorem head_eq_none_iff (h : Shows S b a) (l : ℕ) : b.freeList l = none ↔ a.free l = [] := by
  rw [h.head_eq, Option.map_eq_none_iff, List.head?_eq_none_iff]

theorem findNonEmptyLevel_eq (h : Shows S b a) (l : ℕ) :
    findNonEmptyLevel b l = match a.findLevel l with
      | none => .error .ENFILE
      | some s => .ok s := by
  induction l with
  | zero =>
    simp only [findNonEmptyLevel, Pool.findLevel, h.head_eq_none_iff]
    split_ifs <;> rfl
  | succ l ih =>
    simp only [findNonEmptyLevel, Pool.findLevel, h.head_eq_none_iff, ih]
    split_ifs <;> rfl

/-! ### The loops -/

theorem removeBuddyBlock_run (h : Shows S b a) (hi : a.Inv S.depth {n}) (hn : S.Has n)
    (hl : 0 < n.level) :
    if n.buddy ∈ a.free n.level then
      ∃ b', (removeBuddyBlock (UInt32.ofNat (S.offset n)) n.level
        (UInt32.ofNat (S.size n.level))).run b =
          .ok (UInt32.ofNat (S.offset n.buddy), true) b' ∧ Shows S b' (a.erase n.buddy)
    else
      (removeBuddyBlock (UInt32.ofNat (S.offset n)) n.level (UInt32.ofNat (S.size n.level))).run b =
        .ok (UInt32.ofNat (S.offset n.buddy), false) b := by
  have hb := Shape.has_buddy hn hl
  have hslot := Shape.calcBuddyAllocatorSlot_eq hb
  have hget := memPoolGetBlock_ok b (slot_lt_of_header h.header hb)
  rw [Node.level_buddy] at hslot
  simp only [removeBuddyBlock, Shape.getBuddyOffset_eq hn, EStateM.run_bind, EStateM.run_get,
    hslot, hget]
  by_cases hfree : n.buddy ∈ a.free n.level
  · rw [if_pos hfree]
    have hbody := h.free n.buddy hfree
    simp only [BuddyAllocBlock.body, Prod.mk.injEq] at hbody
    obtain ⟨b₁, hrun, -, hshow, -⟩ := h.extract hi (n := n.buddy) hfree
    rw [Node.level_buddy] at hrun
    refine ⟨_, ?_, hshow⟩
    simp [hbody.2.2.1, hbody.2.2.2, hrun]
  · rw [if_neg hfree]
    -- a buddy that is not on the list is either handed out or not a block
    have hflags : (!(b.block (slotOf n.buddy)).isActive ||
        (b.block (slotOf n.buddy)).isAllocated) = true := by
      by_cases hu : n.buddy ∈ a.used
      · have hbody := h.used n.buddy hu
        simp only [BuddyAllocBlock.body, Prod.mk.injEq] at hbody
        simp [hbody.2.2.2]
      · simp [h.vacant n.buddy hb hfree hu]
    simp [hflags]

theorem mergeLoop_run {l : ℕ} (h : Shows S b a) (hi : a.Inv S.depth {n}) (hn : S.Has n)
    (hl : n.level = l) :
    ∃ b', (mergeLoop l (UInt32.ofNat (S.offset n)) (UInt32.ofNat (S.size l))).run b =
        .ok ((Pool.mergeUp l n a).1.level, UInt32.ofNat (S.offset (Pool.mergeUp l n a).1),
          UInt32.ofNat (S.size (Pool.mergeUp l n a).1.level)) b' ∧
      Shows S b' (Pool.mergeUp l n a).2 ∧ S.Has (Pool.mergeUp l n a).1 := by
  induction l generalizing n a b with
  | zero => exact ⟨b, by simp [mergeLoop, Pool.mergeUp, hl], h, hn⟩
  | succ l ih =>
    have hremove := h.removeBuddyBlock_run hi hn (by omega)
    rw [hl] at hremove
    rw [mergeLoop, EStateM.run_bind, Pool.mergeUp]
    split_ifs at hremove ⊢ with hfree
    · obtain ⟨b₁, hrun, hshow⟩ := hremove
      have hinv := hi.erase_buddy (by omega) (by rwa [Pool.mem_freeNodes, Node.level_buddy, hl])
      have hpl : n.parent.level = l := by
        rw [Node.level_parent, hl, Nat.add_sub_cancel]
      have htop : l < S.top := by
        have := Shape.level_le_top hn
        omega
      have hmerged := ih hshow hinv (Shape.has_parent hn) hpl
      simpa only [hrun, if_true, Shape.min_offset_eq hn (by omega), Shape.size_shiftLeft htop] using hmerged
    · refine ⟨b, ?_, h, hn⟩
      simp [hremove, hl]

theorem splitLoop_run {k : ℕ} (h : Shows S b a) (hi : a.Inv S.depth {n})
    (hn : S.Has n) (hd : n.level + k ≤ S.depth) :
    ∃ b', (splitLoop (UInt32.ofNat (S.offset n)) (List.range' (n.level + 1) k)
        (UInt32.ofNat (S.size n.level))).run b =
          .ok (UInt32.ofNat (S.size (n.level + k))) b' ∧
      Shows S b' (Pool.splitDown k n a).2 ∧
      S.offset (Pool.splitDown k n a).1 = S.offset n := by
  induction k generalizing n a b with
  | zero => exact ⟨b, by simp [splitLoop], h, rfl⟩
  | succ k ih =>
    have htop : n.level < S.top := (show n.level < S.depth by omega).trans_le (Nat.sub_le _ _)
    have hleft : S.Has n.left := Shape.has_left hn (by omega)
    have hright : S.Has n.right := Shape.has_right hn (by omega)
    have hvacant := hi.not_active_of_overlap (Or.inr (Node.right_le n))
    obtain ⟨b₁, b₂, hnew, hadd, hshow⟩ := h.push hi hright hvacant.1 hvacant.2
    have hbuddy := Shape.getBuddyOffset_eq hleft
    rw [Node.buddy_left, Shape.offset_left htop, Node.level_left] at hbuddy
    obtain ⟨b', hrun, hshow', hoffset⟩ := ih hshow (hi.push_right (by omega)) hleft
      (by rw [Node.level_left]; omega)
    rw [Shape.offset_left htop] at hrun hoffset
    rw [Node.level_left] at hrun
    refine ⟨b', ?_, hshow', hoffset⟩
    rw [Node.level_right] at hnew
    rw [List.range'_succ, splitLoop, Shape.size_shiftRight htop, hbuddy, EStateM.run_bind, hnew]
    simp only [EStateM.run_bind, hadd, hrun, Nat.add_assoc, Nat.add_comm 1 k]

theorem splitBlockDown_run {s l : ℕ} {rest : List Node} (h : Shows S b a)
    (hi : a.Inv S.depth ∅) (hs : s < l) (hl : l ≤ S.depth) (hf : a.free s = n :: rest) :
    ∃ b', (splitBlockDown s l).run b =
        .ok (slotOf (Pool.splitDown (l - s) n (a.erase n)).1) b' ∧
      Shows S (b'.setAllocated (slotOf (Pool.splitDown (l - s) n (a.erase n)).1) true)
        ((Pool.splitDown (l - s) n (a.erase n)).2.use
          (Pool.splitDown (l - s) n (a.erase n)).1) := by
  have hns : n.level = s := hi.level_eq s n (by simp [hf])
  have hn : n ∈ a.freeNodes := by simp [Pool.mem_freeNodes, hns, hf]
  have hhas := Inv_has hi (Or.inl hn)
  obtain ⟨b₁, hrun, hoffset, hshow, -⟩ := h.extract hi hn
  have hinv := hi.erase_free hn
  obtain ⟨b₂, hloop, hshow₂, hoffset₂⟩ := hshow.splitLoop_run (k := l - s) hinv hhas (by omega)
  obtain ⟨hinv₂, hlevel, hle, -⟩ := hinv.splitDown (k := l - s) (by omega)
  have hself := hinv₂.not_active_of_overlap (Or.inl le_rfl)
  have hhas₂ := Shape.has_of_le hhas hle (by omega)
  obtain ⟨b₃, hnew, hshow₃⟩ := hshow₂.use hinv₂ hhas₂ hself.1 hself.2
  refine ⟨b₃, ?_, hshow₃⟩
  rw [hns] at hrun hloop hlevel
  rw [show s + (l - s) = l by omega] at hloop hlevel
  rw [hlevel, hoffset₂] at hnew
  have hhead : b.freeList s = some (slotOf n) := by rw [h.head_eq, hf]; rfl
  have hbounds : ¬ (S.levels ≤ s ∨ S.levels ≤ l ∨ l ≤ s) := by
    unfold Shape.levels
    omega
  have hoffset' : ((b₁.setActive (slotOf n) false).block (slotOf n)).offset =
      UInt32.ofNat (S.offset n) := by
    rw [BuddyAlloc.setActive, BuddyAlloc.block_setBlock_self, hoffset]
  simp only [splitBlockDown, EStateM.run_bind, EStateM.run_get, h.numOfLevels, hbounds, hhead,
    hrun, hshow.numOfLevels, hshow.minBlockSize, hoffset', if_false, run_modify,
    Shape.getBlockSize_eq (show s ≤ S.depth by omega), hloop, hnew]

/-! ### The interface -/

theorem allocateAtLevel_run {l : ℕ} (h : Shows S b a) (hi : a.Inv S.depth ∅) :
    match a.free l with
    | [] => (allocateAtLevel l).run b = .ok none b
    | n :: _ => ∃ b', (allocateAtLevel l).run b = .ok (some (slotOf n)) b' ∧
        Shows S b' ((a.erase n).use n) := by
  have hhead := h.head_eq l
  cases hf : a.free l with
  | nil =>
    rw [hf] at hhead
    simp [allocateAtLevel, hhead]
  | cons n rest =>
    rw [hf] at hhead
    have hnl : n.level = l := hi.level_eq l n (by simp [hf])
    obtain ⟨b₁, hrun, -, -, hshow⟩ := h.extract hi (n := n) (by simp [Pool.mem_freeNodes, hnl, hf])
    rw [hnl] at hrun
    refine ⟨_, ?_, hshow⟩
    simp [allocateAtLevel, hhead, hrun]

/-- `buddy_alloc_allocate` is the pool's `alloc` at the level of the request. -/
theorem allocate_run (h : Shows S b a) (hi : a.Inv S.depth ∅) (blockSize : UInt32) :
    match S.requestLevel blockSize with
    | .error e => (buddyAllocAllocate blockSize).run b = .error e b
    | .ok l =>
      match a.alloc l with
      | none => (buddyAllocAllocate blockSize).run b = .error .ENFILE b
      | some (t, a') =>
        ∃ b', (buddyAllocAllocate blockSize).run b = .ok (slotOf t) b' ∧ Shows S b' a' := by
  cases hreq : S.requestLevel blockSize with
  | error e =>
    unfold Shape.requestLevel at hreq
    split_ifs at hreq with hz
    · cases hreq
      simp [buddyAllocAllocate, hz]
    · simp [buddyAllocAllocate, hz, h.minBlockSize, h.numOfLevels, hreq]
  | ok l =>
    have hl := Shape.requestLevel_le hreq
    unfold Shape.requestLevel at hreq
    split_ifs at hreq with hz
    have hat := h.allocateAtLevel_run (l := l) hi
    have hfind := h.findNonEmptyLevel_eq l
    dsimp only
    cases hf : a.findLevel l with
    | none =>
      rw [hf] at hfind
      rw [Pool.findLevel_eq_none hf l le_rfl] at hat
      rw [Pool.alloc_eq_none hf]
      simp [buddyAllocAllocate, hz, h.minBlockSize, h.numOfLevels, hreq, hat, hfind]
    | some s =>
      obtain ⟨hsl, hne, hskip⟩ := Pool.findLevel_eq_some hf
      rw [hf] at hfind
      cases hs : a.free s with
      | nil => exact absurd hs hne
      | cons n rest =>
        rw [Pool.alloc_eq_some hf hs]
        rcases hsl.lt_or_eq with hlt | rfl
        · rw [hskip l hlt le_rfl] at hat
          obtain ⟨b', hrun, hshow⟩ := h.splitBlockDown_run hi hlt hl hs
          refine ⟨_, ?_, hshow⟩
          simp [buddyAllocAllocate, hz, h.minBlockSize, h.numOfLevels, hreq, hat, hfind, hrun]
        · rw [hs] at hat
          obtain ⟨b', hrun, hshow⟩ := hat
          rw [Nat.sub_self]
          refine ⟨b', ?_, hshow⟩
          simp [buddyAllocAllocate, hz, h.minBlockSize, h.numOfLevels, hreq, hrun, Pool.splitDown]

/-- A request fails without a change, or it hands out a new node. -/
theorem allocate_cases (h : Shows S b a) (hi : a.Inv S.depth ∅) (blockSize : UInt32) :
    (∃ e, (buddyAllocAllocate blockSize).run b = .error e b) ∨
      ∃ n b' a', (buddyAllocAllocate blockSize).run b = .ok (slotOf n) b' ∧ Shows S b' a' ∧
        a'.Inv S.depth ∅ ∧ n ∉ a.used ∧ a'.used = insert n a.used := by
  have hrun := h.allocate_run hi blockSize
  cases hreq : S.requestLevel blockSize with
  | error e =>
    simp only [hreq] at hrun
    exact Or.inl ⟨e, hrun⟩
  | ok l =>
    simp only [hreq] at hrun
    cases ha : a.alloc l with
    | none =>
      simp only [ha] at hrun
      exact Or.inl ⟨.ENFILE, hrun⟩
    | some r =>
      obtain ⟨n, a'⟩ := r
      simp only [ha] at hrun
      obtain ⟨b', hb, hshow⟩ := hrun
      obtain ⟨hinv, -, hnew, hused⟩ := hi.alloc (Shape.requestLevel_le hreq) ha
      exact Or.inr ⟨n, b', a', hb, hshow, hinv, hnew, hused⟩

/-- `buddy_alloc_free` on a used block is the pool's `release`. -/
theorem free_run (h : Shows S b a) (hi : a.Inv S.depth ∅) (hn : n ∈ a.used) :
    ∃ b', (buddyAllocFree (slotOf n)).run b = .ok () b' ∧ Shows S b' (a.release n) := by
  have hhas := Inv_has hi (Or.inr hn)
  have hbody := h.used n hn
  simp only [BuddyAllocBlock.body, Prod.mk.injEq] at hbody
  obtain ⟨hoffset, hlevel, -, -⟩ := hbody
  have hinv := hi.unuse_used hn
  obtain ⟨b₁, hmerge, hshow, hhas₁⟩ := (h.unuse hi hn).mergeLoop_run hinv hhas rfl
  obtain ⟨hinv₁, -, -, -⟩ := hinv.mergeUp rfl
  have hself := hinv₁.not_active_of_overlap (Or.inl le_rfl)
  obtain ⟨b₂, b₃, hnew, hadd, hshow₃⟩ := hshow.push hinv₁ hhas₁ hself.1 hself.2
  have hbound : ¬ S.levels ≤ n.level := by
    have := hhas.2
    unfold Shape.levels
    omega
  refine ⟨b₃, ?_, hshow₃⟩
  simp only [buddyAllocFree, EStateM.run_bind, EStateM.run_get, hlevel, hoffset, h.numOfLevels,
    h.minBlockSize, hbound, if_false, run_modify, Shape.getBlockSize_eq hhas.2,
    hmerge, hnew, hadd]

end Shows
end FileTransfer
