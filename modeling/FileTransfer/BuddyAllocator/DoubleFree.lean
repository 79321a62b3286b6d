import FileTransfer.BuddyAllocator.Invariants

/-! Runs in which any handle that was ever returned may be freed. A second release breaks
the lists, but every slot that was ever used keeps the level and the offset of its node,
and the lists join slots of one level only. That is enough to say what one more release
of such a handle does. -/
namespace FileTransfer
open Bisection Intrusive Run

/-- The slot stores the offset and the level of its own node. -/
def Labelled (S : Shape) (b : BuddyAlloc) (p : ℕ) : Prop :=
  p < S.slots ∧ (b.block p).offset = UInt32.ofNat (S.offset (nodeAt p)) ∧
    (b.block p).level = (nodeAt p).level

def SameLevel (S : Shape) (b : BuddyAlloc) (p q : ℕ) : Prop :=
  Labelled S b p ∧ Labelled S b q ∧ (nodeAt p).level = (nodeAt q).level

/-- What no release destroys; the slots of `K` are known to be labelled. -/
structure Typed (S : Shape) (K : Set ℕ) (b : BuddyAlloc) : Prop where
  header : b.header = (S.minBlock, S.levels, UInt32.ofNat S.slots)
  known : ∀ p ∈ K, Labelled S b p
  active : ∀ p < S.slots, (b.block p).isActive = true → Labelled S b p
  head : ∀ l p, b.freeList l = some p → Labelled S b p ∧ (nodeAt p).level = l
  links : b.links.Within (SameLevel S b)

namespace Labelled
variable {S : Shape} {b b' : BuddyAlloc} {p : ℕ}

theorem of_body (h : Labelled S b p) (hbody : (b'.block p).body = (b.block p).body) :
    Labelled S b' p := by
  simp only [BuddyAllocBlock.body, Prod.mk.injEq] at hbody
  obtain ⟨hlt, ho, hl⟩ := h
  exact ⟨hlt, hbody.1.trans ho, hbody.2.1.trans hl⟩

theorem has (h : Labelled S b p) : S.Has (nodeAt p) := Shape.has_nodeAt h.1

theorem setBlock (h : Labelled S b p) {q : ℕ} {blk : BuddyAllocBlock}
    (ho : blk.offset = (b.block q).offset) (hl : blk.level = (b.block q).level) :
    Labelled S (b.setBlock q blk) p := by
  unfold Labelled
  rw [BuddyAlloc.block_setBlock]
  by_cases hpq : p = q
  · rw [if_pos hpq, ho, hl, ← hpq]
    exact h
  · rw [if_neg hpq]
    exact h

theorem setAllocated (h : Labelled S b p) (q : ℕ) (flag : Bool) :
    Labelled S (b.setAllocated q flag) p := h.setBlock rfl rfl

end Labelled

namespace SameLevel
variable {S : Shape} {b : BuddyAlloc}

theorem symm (p q : ℕ) (h : SameLevel S b p q) : SameLevel S b q p := ⟨h.2.1, h.1, h.2.2.symm⟩

theorem trans (p q r : ℕ) (h : SameLevel S b p q) (h' : SameLevel S b q r) : SameLevel S b p r :=
  ⟨h.1, h'.2.1, h.2.2.trans h'.2.2⟩

end SameLevel

namespace Typed
variable {S : Shape} {K : Set ℕ} {b : BuddyAlloc} {n : Node} {p : ℕ}

theorem minBlockSize (h : Typed S K b) : b.minBlockSize = S.minBlock := congrArg (·.1) h.header
theorem numOfLevels (h : Typed S K b) : b.numOfLevels = S.levels := congrArg (·.2.1) h.header

/-- A step that keeps the labels, and activates and lists labelled slots only. -/
theorem change (h : Typed S K b) {b' : BuddyAlloc} (hheader : b'.header = b.header)
    (hlabel : ∀ q, Labelled S b q → Labelled S b' q)
    (hactive : ∀ q < S.slots, (b'.block q).isActive = true →
      (b.block q).isActive = true ∨ Labelled S b' q)
    (hhead : ∀ l q, b'.freeList l = some q → Labelled S b' q ∧ (nodeAt q).level = l)
    (hlinks : b'.links.Within (SameLevel S b)) : Typed S K b' where
  header := hheader.trans h.header
  known q hq := hlabel q (h.known q hq)
  active q hq ha := (hactive q hq ha).elim (fun ha => hlabel q (h.active q hq ha)) id
  head := hhead
  links := hlinks.mono fun p q hpq => ⟨hlabel p hpq.1, hlabel q hpq.2.1, hpq.2.2⟩

/-- Rewriting the flags of a block. -/
theorem setBlock (h : Typed S K b) {blk : BuddyAllocBlock} (ho : blk.offset = (b.block p).offset)
    (hl : blk.level = (b.block p).level) (hlinks : (b.setBlock p blk).links = b.links)
    (ha : blk.isActive = true → (b.block p).isActive = true) : Typed S K (b.setBlock p blk) := by
  have hlabel : ∀ q, Labelled S b q → Labelled S (b.setBlock p blk) q := fun q hq =>
    hq.setBlock ho hl
  apply h.change (b.header_setBlock p blk) hlabel
  · intro q _ hact
    rw [BuddyAlloc.block_setBlock] at hact
    by_cases hqp : q = p
    · rw [if_pos hqp] at hact
      rw [hqp]
      exact Or.inl (ha hact)
    · rw [if_neg hqp] at hact
      exact Or.inl hact
  · intro l q hq
    exact ⟨hlabel q (h.head l q hq).1, (h.head l q hq).2⟩
  · rw [hlinks]
    exact h.links

theorem setActive (h : Typed S K b) (p : ℕ) : Typed S K (b.setActive p false) := by
  refine h.setBlock rfl rfl (b.links_setActive p false) ?_
  intro hf
  cases hf

theorem setAllocated (h : Typed S K b) (p : ℕ) (flag : Bool) : Typed S K (b.setAllocated p flag) :=
  h.setBlock rfl rfl (b.links_setAllocated p flag) id

/-- Making a block labels its slot. -/
theorem create (h : Typed S K b) (hn : S.Has n) :
    Typed S K (b.setBlock (slotOf n) (newBlock n.level (UInt32.ofNat (S.offset n)))) ∧
      Labelled S (b.setBlock (slotOf n) (newBlock n.level (UInt32.ofNat (S.offset n))))
        (slotOf n) := by
  have hlevel : n.level % 64 = n.level := Nat.mod_eq_of_lt (by have := Shape.level_lt hn; omega)
  have hself : Labelled S (b.setBlock (slotOf n) (newBlock n.level (UInt32.ofNat (S.offset n))))
      (slotOf n) := by
    refine ⟨Shape.slot_lt hn, ?_, ?_⟩ <;> rw [BuddyAlloc.block_setBlock_self, nodeAt_slotOf hn.1]
    · rfl
    · exact hlevel
  refine ⟨?_, hself⟩
  have hlabel : ∀ q, Labelled S b q →
      Labelled S (b.setBlock (slotOf n) (newBlock n.level (UInt32.ofNat (S.offset n)))) q := by
    intro q hq
    by_cases hqn : q = slotOf n
    · rw [hqn]
      exact hself
    · apply hq.of_body
      rw [BuddyAlloc.block_setBlock_of_ne _ _ _ hqn]
  apply h.change (b.header_setBlock _ _) hlabel
  · intro q _ hact
    by_cases hqn : q = slotOf n
    · rw [hqn]
      exact Or.inr hself
    · rw [BuddyAlloc.block_setBlock_of_ne _ _ _ hqn] at hact
      exact Or.inl hact
  · intro l q hq
    exact ⟨hlabel q (h.head l q hq).1, (h.head l q hq).2⟩
  · intro x y hxy
    by_cases hx : x = slotOf n
    · simp [BuddyAlloc.links, hx, newBlock] at hxy
    · simp only [BuddyAlloc.links, BuddyAlloc.block_setBlock_of_ne _ _ _ hx] at hxy
      exact h.links x y hxy

/-- `create_new_block` on a node: it is refused when the slot is active. -/
theorem createNewBlock_run (h : Typed S K b) (hn : S.Has n) :
    (createNewBlock n.level (UInt32.ofNat (S.offset n)) (UInt32.ofNat (S.size n.level))).run b =
      if (b.block (slotOf n)).isActive then .error .EINVAL b
      else .ok (slotOf n)
        (b.setBlock (slotOf n) (newBlock n.level (UInt32.ofNat (S.offset n)))) := by
  simp only [createNewBlock, EStateM.run_bind, EStateM.run_get, Shape.calcBuddyAllocatorSlot_eq hn,
    memPoolGetBlock_ok b (slot_lt_of_header h.header hn)]
  cases (b.block (slotOf n)).isActive <;> rfl

/-- A step that changes the links, and the head of one list. -/
theorem relist (h : Typed S K b) {b' : BuddyAlloc} {level : ℕ} {first : Option ℕ}
    (hheader : b'.header = b.header) (hbody : ∀ q, (b'.block q).body = (b.block q).body)
    (hheads : b'.freeList = Function.update b.freeList level first)
    (hfirst : ∀ q, first = some q → Labelled S b q ∧ (nodeAt q).level = level)
    (hlinks : b'.links.Within (SameLevel S b)) : Typed S K b' := by
  have hlabel : ∀ q, Labelled S b q → Labelled S b' q := fun q hq => hq.of_body (hbody q)
  apply h.change hheader hlabel
  · intro q _ hact
    exact Or.inl ((congrArg (·.2.2.1) (hbody q)).symm.trans hact)
  · intro l q hq
    rw [hheads, Function.update_apply] at hq
    by_cases hl : l = level
    · rw [if_pos hl] at hq
      rw [hl]
      exact ⟨hlabel q (hfirst q hq).1, (hfirst q hq).2⟩
    · rw [if_neg hl] at hq
      exact ⟨hlabel q (h.head l q hq).1, (h.head l q hq).2⟩
  · exact hlinks

theorem linkedListAddBlock_run (h : Typed S K b) (hp : Labelled S b p) :
    ∃ b', (linkedListAddBlock p).run b = .ok () b' ∧ Typed S K b' ∧
      ∀ q, (b'.block q).body = (b.block q).body := by
  obtain ⟨b', hrun, hlinks, hheads, hheader, hbody⟩ := FileTransfer.linkedListAddBlock_run b p
  refine ⟨b', hrun, h.relist hheader hbody hheads ?_ ?_, hbody⟩
  · intro q hq
    cases hq
    exact ⟨hp, hp.2.2.symm⟩
  · rw [hlinks]
    apply h.links.pushFront SameLevel.symm
    intro y hy
    have hhead := h.head _ y hy
    exact ⟨hp, hhead.1, by rw [hhead.2, hp.2.2]⟩

theorem linkedListExtractBlock_run (h : Typed S K b) (p : ℕ) :
    ∃ b', (linkedListExtractBlock p (nodeAt p).level).run b = .ok () b' ∧ Typed S K b' ∧
      ∀ q, (b'.block q).body = (b.block q).body := by
  obtain ⟨b', hrun, hlinks, hheads, hheader, hbody⟩ :=
    FileTransfer.linkedListExtractBlock_run b p (nodeAt p).level
  refine ⟨b', hrun, h.relist hheader hbody hheads ?_ ?_, hbody⟩
  · intro q hq
    unfold Links.unlinkHead at hq
    cases hprev : b.links.prev p with
    | none =>
      rw [hprev] at hq
      have hpq := h.links p q (Or.inl hq)
      exact ⟨hpq.2.1, hpq.2.2.symm⟩
    | some r =>
      rw [hprev] at hq
      exact h.head _ q hq
  · rw [hlinks]
    exact h.links.unlink SameLevel.symm SameLevel.trans p

/-- A block is made and put on its free list, unless its slot is active. -/
theorem push_run (h : Typed S K b) (hn : S.Has n) :
    if (b.block (slotOf n)).isActive then
      (createNewBlock n.level (UInt32.ofNat (S.offset n)) (UInt32.ofNat (S.size n.level)) >>=
        linkedListAddBlock).run b = .error .EINVAL b
    else
      ∃ b', (createNewBlock n.level (UInt32.ofNat (S.offset n)) (UInt32.ofNat (S.size n.level)) >>=
        linkedListAddBlock).run b = .ok () b' ∧ Typed S K b' := by
  rw [EStateM.run_bind, h.createNewBlock_run hn]
  by_cases hactive : (b.block (slotOf n)).isActive = true
  · rw [if_pos hactive, if_pos hactive]
  · rw [if_neg hactive, if_neg hactive]
    obtain ⟨htyped, hlabelled⟩ := h.create hn
    obtain ⟨b', hrun, htyped', -⟩ := htyped.linkedListAddBlock_run hlabelled
    exact ⟨b', hrun, htyped'⟩

/-! ### Releases -/

/-- `remove_buddy_block` changes nothing, or takes an active buddy away. -/
theorem removeBuddyBlock_run (h : Typed S K b) (hn : S.Has n) (hl : 0 < n.level) :
    ∃ found b', (removeBuddyBlock (UInt32.ofNat (S.offset n)) n.level
        (UInt32.ofNat (S.size n.level))).run b = .ok (UInt32.ofNat (S.offset n.buddy), found) b' ∧
      Typed S K b' ∧
      (∀ q, (b.block q).isActive = false → (b'.block q).isActive = false) ∧
      (found = false ∧ b' = b ∨ found = true ∧ (b.block (slotOf n.buddy)).isActive = true ∧
        (b'.block (slotOf n.buddy)).isActive = false) := by
  have hb := Shape.has_buddy hn hl
  have hslot := Shape.calcBuddyAllocatorSlot_eq hb
  rw [Node.level_buddy] at hslot
  simp only [removeBuddyBlock, Shape.getBuddyOffset_eq hn, EStateM.run_bind, EStateM.run_get,
    hslot, memPoolGetBlock_ok b (slot_lt_of_header h.header hb)]
  by_cases hflags : (!(b.block (slotOf n.buddy)).isActive ||
      (b.block (slotOf n.buddy)).isAllocated) = true
  · refine ⟨false, b, ?_, h, fun _ ha => ha, Or.inl ⟨rfl, rfl⟩⟩
    rw [if_pos hflags]
    rfl
  · have hactive : (b.block (slotOf n.buddy)).isActive = true := by
      simp only [Bool.or_eq_true, Bool.not_eq_true', not_or, Bool.not_eq_false] at hflags
      exact hflags.1
    obtain ⟨b₁, hrun, htyped, hbody⟩ := h.linkedListExtractBlock_run (slotOf n.buddy)
    rw [nodeAt_slotOf hb.1, Node.level_buddy] at hrun
    refine ⟨true, b₁.setActive (slotOf n.buddy) false, ?_, htyped.setActive _, ?_,
      Or.inr ⟨rfl, hactive, ?_⟩⟩
    · rw [if_neg hflags]
      simp [hrun]
    · intro q hq
      rw [BuddyAlloc.setActive, BuddyAlloc.block_setBlock]
      by_cases hqn : q = slotOf n.buddy
      · rw [if_pos hqn]
      · rw [if_neg hqn]
        exact (congrArg (·.2.2.1) (hbody q)).trans hq
    · rw [BuddyAlloc.setActive, BuddyAlloc.block_setBlock_self]

/-- The loop of `buddy_alloc_free` ends at a node, after taking the first buddy away or at once. -/
theorem mergeLoop_run {l : ℕ} (h : Typed S K b) (hn : S.Has n) (hl : n.level = l) :
    ∃ m b', (mergeLoop l (UInt32.ofNat (S.offset n)) (UInt32.ofNat (S.size l))).run b =
        .ok (m.level, UInt32.ofNat (S.offset m), UInt32.ofNat (S.size m.level)) b' ∧
      S.Has m ∧ Typed S K b' ∧
      (∀ q, (b.block q).isActive = false → (b'.block q).isActive = false) ∧
      (m = n ∧ b' = b ∨ (b.block (slotOf n.buddy)).isActive = true ∧
        (b'.block (slotOf n.buddy)).isActive = false) := by
  induction l generalizing n b with
  | zero =>
    refine ⟨n, b, ?_, hn, h, fun _ ha => ha, Or.inl ⟨rfl, rfl⟩⟩
    rw [hl]
    rfl
  | succ l ih =>
    obtain ⟨found, b₁, hrun, htyped, hoff, hcase⟩ := h.removeBuddyBlock_run hn (by omega)
    rw [hl] at hrun
    rw [mergeLoop, EStateM.run_bind, hrun]
    rcases hcase with ⟨rfl, rfl⟩ | ⟨rfl, hactive, hgone⟩
    · refine ⟨n, b₁, ?_, hn, h, fun _ ha => ha, Or.inl ⟨rfl, rfl⟩⟩
      rw [hl]
      rfl
    · have hpl : n.parent.level = l := by
        rw [Node.level_parent, hl, Nat.add_sub_cancel]
      have htop : l < S.top := by
        have := Shape.level_le_top hn
        omega
      obtain ⟨m, b', hloop, hm, htyped', hoff', -⟩ := ih htyped (Shape.has_parent hn) hpl
      refine ⟨m, b', ?_, hm, htyped', fun q hq => hoff' q (hoff q hq),
        Or.inr ⟨hactive, hoff' _ hgone⟩⟩
      simpa only [if_true, Shape.min_offset_eq hn (by omega), Shape.size_shiftLeft htop] using hloop

/-- The release of a labelled slot succeeds, or it fails after taking a buddy away. -/
theorem free_run (h : Typed S K b) (hp : Labelled S b p) :
    (∃ b', (buddyAllocFree p).run b = .ok () b' ∧ Typed S K b') ∨
      ∃ b' q, (buddyAllocFree p).run b = .error .EINVAL b' ∧ Typed S K b' ∧
        (b.block q).isActive = true ∧ (b'.block q).isActive = false := by
  have hhas := hp.has
  have hslot := (slotOf_nodeAt p).1
  have hbound : ¬ S.levels ≤ (nodeAt p).level := Nat.not_le.mpr (Nat.lt_succ_of_le hhas.2)
  obtain ⟨m, b₁, hmerge, hm, htyped, -, hcase⟩ := (h.setActive p).mergeLoop_run hhas rfl
  have hfree : (buddyAllocFree p).run b = (createNewBlock m.level (UInt32.ofNat (S.offset m))
      (UInt32.ofNat (S.size m.level)) >>= linkedListAddBlock).run b₁ := by
    simp only [buddyAllocFree, EStateM.run_bind, EStateM.run_get, hp.2.1, hp.2.2, h.numOfLevels,
      h.minBlockSize, hbound, if_false, run_modify, Shape.getBlockSize_eq hhas.2, hmerge]
  have hself : ((b.setActive p false).block p).isActive = false := by
    rw [BuddyAlloc.setActive, BuddyAlloc.block_setBlock_self]
  have hpush := htyped.push_run hm
  rw [← hfree] at hpush
  by_cases hactive : (b₁.block (slotOf m)).isActive = true
  · right
    rw [if_pos hactive] at hpush
    rcases hcase with ⟨rfl, rfl⟩ | ⟨hbuddy, hgone⟩
    · rw [hslot, hself] at hactive
      cases hactive
    · refine ⟨b₁, slotOf (nodeAt p).buddy, hpush, htyped, ?_, hgone⟩
      have hne : slotOf (nodeAt p).buddy ≠ p := by
        intro he
        rw [he, hself] at hbuddy
        cases hbuddy
      rwa [BuddyAlloc.setActive, BuddyAlloc.block_setBlock_of_ne _ _ _ hne] at hbuddy
  · left
    rwa [if_neg hactive] at hpush

/-! ### Requests -/

theorem splitLoop_run {k : ℕ} (h : Typed S K b) (hn : S.Has n) (hd : n.level + k ≤ S.depth) :
    Leaves (fun size b' => size = UInt32.ofNat (S.size (n.level + k)) ∧ Typed S K b') (Typed S K)
      ((splitLoop (UInt32.ofNat (S.offset n)) (List.range' (n.level + 1) k)
        (UInt32.ofNat (S.size n.level))).run b) := by
  induction k generalizing n b with
  | zero => exact ⟨rfl, h⟩
  | succ k ih =>
    have htop : n.level < S.top := (show n.level < S.depth by omega).trans_le (Nat.sub_le _ _)
    have hleft : S.Has n.left := Shape.has_left hn (by omega)
    have hright : S.Has n.right := Shape.has_right hn (by omega)
    have hbuddy := Shape.getBuddyOffset_eq hleft
    rw [Node.buddy_left, Shape.offset_left htop, Node.level_left] at hbuddy
    have hnew := h.createNewBlock_run hright
    rw [Node.level_right] at hnew
    rw [List.range'_succ, splitLoop, Shape.size_shiftRight htop, hbuddy, EStateM.run_bind, hnew]
    by_cases hactive : (b.block (slotOf n.right)).isActive = true
    · rw [if_pos hactive]
      exact h
    · rw [if_neg hactive]
      obtain ⟨htyped, hlabelled⟩ := h.create hright
      rw [Node.level_right] at htyped hlabelled
      obtain ⟨b₁, hadd, htyped₁, -⟩ := htyped.linkedListAddBlock_run hlabelled
      have hrest := ih htyped₁ hleft (by rw [Node.level_left]; omega)
      rw [Shape.offset_left htop, Node.level_left, Nat.add_right_comm, Nat.add_assoc] at hrest
      simpa only [EStateM.run_bind, hadd] using hrest

theorem splitBlockDown_run (h : Typed S K b) (s l : ℕ) :
    Leaves (fun p b' => Typed S K b' ∧ Labelled S b' p) (Typed S K)
      ((splitBlockDown s l).run b) := by
  simp only [splitBlockDown, EStateM.run_bind, EStateM.run_get, h.numOfLevels]
  by_cases hbounds : S.levels ≤ s ∨ S.levels ≤ l ∨ l ≤ s
  · rw [if_pos hbounds]
    exact h
  rw [if_neg hbounds]
  obtain ⟨hs, hl⟩ : l ≤ S.depth ∧ s < l := by
    unfold Shape.levels at hbounds
    omega
  cases hhead : b.freeList s with
  | none => exact h
  | some p =>
    obtain ⟨hp, hps⟩ := h.head s p hhead
    obtain ⟨b₁, hrun, htyped, hbody⟩ := h.linkedListExtractBlock_run p
    have htyped₁ := htyped.setActive p
    have hoffset : ((b₁.setActive p false).block p).offset = UInt32.ofNat (S.offset (nodeAt p)) := by
      rw [BuddyAlloc.setActive, BuddyAlloc.block_setBlock_self]
      exact (congrArg (·.1) (hbody p)).trans hp.2.1
    have hloop := htyped₁.splitLoop_run (k := l - s) hp.has (by omega)
    rw [hps] at hrun hloop
    rw [Nat.add_sub_cancel' hl.le] at hloop
    simp only [EStateM.run_bind, hrun, run_modify, EStateM.run_get, htyped₁.minBlockSize,
      htyped₁.numOfLevels, hoffset, Shape.getBlockSize_eq (show s ≤ S.depth by omega)]
    cases hres : (splitLoop (UInt32.ofNat (S.offset (nodeAt p))) (List.range' (s + 1) (l - s))
        (UInt32.ofNat (S.size s))).run (b₁.setActive p false) with
    | error e b₂ =>
      rw [hres] at hloop
      exact hloop
    | ok size b₂ =>
      rw [hres] at hloop
      obtain ⟨rfl, htyped₂⟩ := hloop
      -- the target starts where the block that was split does
      have hoff := Shape.offset_firstLeaf (S := S) (n := nodeAt p) (l := l) (by omega)
        (hs.trans (Nat.sub_le _ _))
      have hhas : S.Has (Node.firstLeaf l (nodeAt p)) :=
        Shape.has_of_le hp.has (Node.firstLeaf_le (by omega)) hs
      have hnew := htyped₂.createNewBlock_run hhas
      rw [hoff, show (Node.firstLeaf l (nodeAt p)).level = l from rfl] at hnew
      dsimp only
      rw [hnew]
      by_cases hactive : (b₂.block (slotOf (Node.firstLeaf l (nodeAt p)))).isActive = true
      · rw [if_pos hactive]
        exact htyped₂
      · rw [if_neg hactive]
        have hcreate := htyped₂.create hhas
        rwa [hoff] at hcreate

theorem allocateAtLevel_run (h : Typed S K b) (l : ℕ) :
    b.freeList l = none ∧ (allocateAtLevel l).run b = .ok none b ∨
      ∃ p b', (allocateAtLevel l).run b = .ok (some p) b' ∧ Typed S K b' ∧ Labelled S b' p := by
  cases hhead : b.freeList l with
  | none => exact Or.inl ⟨rfl, by simp [allocateAtLevel, hhead]⟩
  | some p =>
    obtain ⟨hp, hpl⟩ := h.head l p hhead
    obtain ⟨b₁, hrun, htyped, hbody⟩ := h.linkedListExtractBlock_run p
    rw [hpl] at hrun
    refine Or.inr ⟨p, b₁.setAllocated p true, by simp [allocateAtLevel, hhead, hrun],
      htyped.setAllocated p true, (hp.of_body (hbody p)).setAllocated p true⟩

theorem allocate_run (h : Typed S K b) (blockSize : UInt32) :
    Leaves (fun p b' => Typed S K b' ∧ Labelled S b' p) (Typed S K)
      ((buddyAllocAllocate blockSize).run b) := by
  unfold buddyAllocAllocate
  by_cases hz : blockSize = 0
  · rw [if_pos hz]
    exact h
  rw [if_neg hz]
  simp only [EStateM.run_bind, EStateM.run_get]
  cases getBlockLevel b.minBlockSize b.numOfLevels (nextPow2 blockSize) with
  | error e => exact h
  | ok l =>
    rcases h.allocateAtLevel_run l with ⟨-, hrun⟩ | ⟨p, b₁, hrun, htyped, hp⟩
    · simp only [EStateM.run_bind, hrun, EStateM.run_get]
      cases findNonEmptyLevel b l with
      | error e => exact h
      | ok s =>
        have hsplit := h.splitBlockDown_run s l
        simp only [EStateM.run_bind]
        cases hres : (splitBlockDown s l).run b with
        | error e b₁ =>
          rw [hres] at hsplit
          exact hsplit
        | ok p b₁ =>
          rw [hres] at hsplit
          exact ⟨hsplit.1.setAllocated p true, hsplit.2.setAllocated p true⟩
    · simp only [EStateM.run_bind, hrun]
      exact ⟨htyped, hp⟩

end Typed

/-- A new allocator knows no handles. -/
theorem Made.typed {S : Shape} {b : BuddyAlloc} (h : Made S b) : Typed S ∅ b := by
  obtain ⟨z, hz, hrun⟩ := h
  have hzero : Typed S ∅ z := by
    refine ⟨hz.header, fun p hp => absurd hp (Set.notMem_empty p), ?_, ?_, ?_⟩
    · intro p _ ha
      rw [hz.block] at ha
      cases ha
    · intro l p hp
      rw [hz.heads] at hp
      cases hp
    · intro p q hpq
      simp [BuddyAlloc.links, hz.block, BuddyAllocBlock.zero] at hpq
  have hpush := hzero.push_run S.has_root
  rw [hz.block, if_neg (by decide)] at hpush
  obtain ⟨b', hrun', htyped⟩ := hpush
  rw [Shape.offset_root, show (createNewBlock Node.root.level 0
    (UInt32.ofNat (S.size Node.root.level)) >>= linkedListAddBlock).run z = .ok () b from hrun] at hrun'
  cases hrun'
  exact htyped

/-- `buddy_alloc_free` refuses the handle and leaves every slot and every free list alone. -/
def FreeRefused (b : BuddyAlloc) (p : ℕ) : Prop :=
  ∃ e b', (buddyAllocFree p).run b = .error e b' ∧ (∀ q, b'.block q = b.block q) ∧
    ∀ l, b'.freeList l = b.freeList l

theorem Typed.not_freeRefused {S : Shape} {K : Set ℕ} {b : BuddyAlloc} {p : ℕ}
    (h : Typed S K b) (hp : p ∈ K) : ¬ FreeRefused b p := by
  rintro ⟨e, b', hrun, hblock, -⟩
  rcases h.free_run (h.known p hp) with ⟨c, hok, -⟩ | ⟨c, q, herr, -, hon, hoff⟩
  · rw [hok] at hrun
    cases hrun
  · rw [herr] at hrun
    cases hrun
    rw [hblock, hon] at hoff
    cases hoff

namespace AllocSession
variable {S : Shape} {s : AllocSession}

/-- The slots of all handles ever returned stay labelled, whatever is freed. -/
def Remembers (S : Shape) (s : AllocSession) : Prop := Typed S {p | p ∈ s.returned} s.alloc

theorem Remembers.exec (h : Remembers S s) {op : AllocOp} (hop : onReturned s op) :
    Remembers S (s.exec op) := by
  cases op with
  | allocate blockSize =>
    have hrun := Typed.allocate_run h blockSize
    unfold AllocSession.exec
    cases hres : (buddyAllocAllocate blockSize).run s.alloc with
    | error e b =>
      rw [hres] at hrun
      simp only [hres]
      exact hrun
    | ok p b =>
      rw [hres] at hrun
      obtain ⟨htyped, hp⟩ := hrun
      simp only [hres]
      refine { htyped with known := fun q hq => ?_ }
      rcases List.mem_cons.mp hq with rfl | hq
      · exact hp
      · exact htyped.known q hq
  | free p =>
    unfold AllocSession.exec
    rcases Typed.free_run h (h.known p hop) with ⟨b, hrun, htyped⟩ | ⟨b, q, hrun, htyped, -, -⟩
    · simp only [hrun]
      exact htyped
    · simp only [hrun]
      exact htyped

/-- The handles are remembered in every state of a run in which any of them may be freed. -/
theorem remembers_of_made {b : BuddyAlloc} (hmade : Made S b)
    (hr : Reach onReturned exec (start b) s) : Remembers S s := by
  have hstart : Remembers S (start b) := { hmade.typed with known := fun q hq => nomatch hq }
  exact hr.invariant (Remembers S) hstart fun t op ht hop => ht.exec hop

/-- So no release of a handle that was ever returned is refused, and no second release is. -/
theorem Remembers.not_freeRefused (h : Remembers S s) {p : ℕ} (hp : p ∈ s.returned) :
    ¬ FreeRefused s.alloc p := Typed.not_freeRefused h hp

end AllocSession
end FileTransfer
