import FileTransfer.Foundation.Agreement
import FileTransfer.BuddyAllocator.PoolView

/-! In a pool of at most 27 levels each function of the code does in the words of the array what
it does in the slots. -/
namespace FileTransfer.PoolMemory
open Agreement

namespace Encodes
variable {A : Layout} {b : BuddyAlloc} {c : FileTransfer.BuddyAlloc} {i p : ℕ}

theorem setBlock_setBlock (c : FileTransfer.BuddyAlloc) (i : ℕ) (blk blk' : BuddyAllocBlock) :
    (c.setBlock i blk).setBlock i blk' = c.setBlock i blk' := by
  unfold FileTransfer.BuddyAlloc.setBlock
  simp

theorem slot_lt (h : Encodes A b c) {slot : UInt32}
    (hslot : FileTransfer.memPoolGetBlock c.memPool slot = .ok i) : i < A.slots.toNat := by
  rw [FileTransfer.memPoolGetBlock, h.numOfElements] at hslot
  split at hslot
  · cases hslot
  · rename_i hle
    cases hslot
    rwa [UInt32.le_iff_toNat_le, not_le] at hle

/-! ### The free lists -/

theorem createNewBlock_agree (h : Encodes A b c) {level : ℕ} (hl : level < A.levels)
    (offset blockSize : UInt32) :
    Agree (Encodes A) (fun p i => A.Pointer p (some i))
      ((createNewBlock level offset blockSize).run b)
      ((FileTransfer.createNewBlock level offset blockSize).run c) := by
  rw [createNewBlock, FileTransfer.createNewBlock, EStateM.run_bind, EStateM.run_bind,
    h.memPoolGetBlock_run, EStateM.run_get]
  dsimp only
  cases hslot : FileTransfer.memPoolGetBlock c.memPool
      (calcBuddyAllocatorSlot offset level blockSize) with
  | error e => exact .error h
  | ok i =>
    have hi : i < A.slots.toNat := h.slot_lt hslot
    dsimp only
    rw [EStateM.run_bind, h.getActive_run hi]
    dsimp only
    by_cases hactive : (c.block i).isActive = true
    · rw [if_pos hactive, if_pos hactive]
      exact .error h
    · rw [if_neg hactive, if_neg hactive]
      obtain ⟨b₁, h₁, e₁⟩ := h.setLevel_run hi hl
      obtain ⟨b₂, h₂, e₂⟩ := e₁.setNext_run hi .null
      obtain ⟨b₃, h₃, e₃⟩ := e₂.setPrev_run hi .null
      obtain ⟨b₄, h₄, e₄⟩ := e₃.setOffset_run hi offset
      obtain ⟨b₅, h₅, e₅⟩ := e₄.setActive_run hi true
      obtain ⟨b₆, h₆, e₆⟩ := e₅.setAllocated_run hi false
      simp only [FileTransfer.BuddyAlloc.setAllocated, FileTransfer.BuddyAlloc.setActive,
        FileTransfer.BuddyAlloc.setPrev, FileTransfer.BuddyAlloc.setNext, setBlock_setBlock,
        FileTransfer.BuddyAlloc.block_setBlock_self] at e₆
      simp only [EStateM.run_bind, h₁, h₂, h₃, h₄, h₅, h₆]
      exact .ok e₆ ⟨hi, rfl⟩

theorem level_setNext (c : FileTransfer.BuddyAlloc) (p : ℕ) (q : Option ℕ) (i : ℕ) :
    ((c.setNext p q).block i).level = (c.block i).level :=
  congrArg (·.2.1) (c.body_setNext p q i)

theorem level_setPrev (c : FileTransfer.BuddyAlloc) (p : ℕ) (q : Option ℕ) (i : ℕ) :
    ((c.setPrev p q).block i).level = (c.block i).level :=
  congrArg (·.2.1) (c.body_setPrev p q i)

/-- The second half of `linked_list_add_block`. -/
theorem linkFront_run (h : Encodes A b c) (hi : i < A.slots.toNat) {l : ℕ}
    (hl : (c.block i).level = l) :
    ∃ b', (do
        setNext (A.address i) (← getHead (← getLevel (A.address i)))
        setPrev (A.address i) 0
        setHead (← getLevel (A.address i)) (A.address i)).run b = .ok () b' ∧
      Encodes A b' (((c.setNext i (c.freeList l)).setPrev i none).setHead l (some i)) := by
  subst hl
  have hlevel := (h.block i hi).level_lt
  obtain ⟨v, hhead, hv⟩ := h.getHead_run hlevel
  obtain ⟨b₁, h₁, e₁⟩ := h.setNext_run hi hv
  obtain ⟨b₂, h₂, e₂⟩ := e₁.setPrev_run hi .null
  have hsame : (((c.setNext i (c.freeList (c.block i).level)).setPrev i none).block i).level =
      (c.block i).level := by
    rw [level_setPrev, level_setNext]
  obtain ⟨b₃, h₃, e₃⟩ := e₂.setHead_run hlevel (.slot hi)
  refine ⟨b₃, ?_, e₃⟩
  simp only [EStateM.run_bind, h.getLevel_run hi, hhead, h₁, h₂, e₂.getLevel_run hi, hsame, h₃]

/-- The block that is added is in a slot. -/
theorem linkedListAddBlock_run (h : Encodes A b c) (hi : i < A.slots.toNat) :
    ∃ b' c', (linkedListAddBlock (A.address i)).run b = .ok () b' ∧
      (FileTransfer.linkedListAddBlock i).run c = .ok () c' ∧ Encodes A b' c' := by
  have hlevel := (h.block i hi).level_lt
  obtain ⟨v, hhead, hv⟩ := h.getHead_run hlevel
  have hzero := hv.eq_zero_iff
  rw [linkedListAddBlock, FileTransfer.linkedListAddBlock, run_modify, EStateM.run_bind,
    h.getLevel_run hi]
  dsimp only
  rw [EStateM.run_bind, hhead]
  dsimp only
  cases hc : c.freeList (c.block i).level with
  | none =>
    rw [if_neg (not_not.mpr (hzero.mpr hc))]
    obtain ⟨b', hrun, henc⟩ := h.linkFront_run hi rfl
    rw [hc] at henc
    exact ⟨b', _, hrun, rfl, henc⟩
  | some q =>
    rw [hc] at hv
    obtain ⟨hq, hvq⟩ := hv
    obtain ⟨b₁, h₁, e₁⟩ := h.setPrev_run hq (.slot hi)
    obtain ⟨b', hrun, henc⟩ := e₁.linkFront_run hi (level_setPrev c q (some i) i)
    rw [show (c.setPrev q (some i)).freeList = c.freeList from rfl, hc] at henc
    refine ⟨b', _, ?_, rfl, henc⟩
    rw [if_pos (fun hz => nomatch (hzero.mp hz).symm.trans hc), EStateM.run_bind, h.getLevel_run hi]
    dsimp only
    rw [EStateM.run_bind, hhead]
    dsimp only
    rw [EStateM.run_bind, hvq, h₁]
    exact hrun

/-- The second half of `linked_list_extract_block`. -/
theorem unlinkBefore_run (h : Encodes A b c) {l v w : ℕ} {next prev : Option ℕ}
    (hl : l < A.levels) (hv : A.Pointer v next) : A.Pointer w prev →
    ∃ b', (if w ≠ 0 then setNext w v else setHead l v).run b = .ok () b' ∧
      Encodes A b' (match prev with
        | some p => c.setNext p next
        | none => c.setHead l next) := by
  intro hw
  cases prev with
  | none =>
    rw [if_neg (not_not.mpr (show w = 0 from hw))]
    exact h.setHead_run hl hv
  | some q =>
    obtain ⟨hq, rfl⟩ := hw
    rw [if_pos Layout.address_ne_zero]
    exact h.setNext_run hq hv

theorem linkedListExtractBlock_run (h : Encodes A b c) (hi : i < A.slots.toNat) {l : ℕ}
    (hl : l < A.levels) :
    ∃ b' c', (linkedListExtractBlock (A.address i) l).run b = .ok () b' ∧
      (FileTransfer.linkedListExtractBlock i l).run c = .ok () c' ∧ Encodes A b' c' := by
  obtain ⟨v, hnext, hv⟩ := h.getNext_run hi
  obtain ⟨w, hprev, hw⟩ := h.getPrev_run hi
  rw [linkedListExtractBlock, EStateM.run_bind, hnext]
  dsimp only
  rw [EStateM.run_bind, hprev, FileTransfer.linkedListExtractBlock, run_modify]
  dsimp only
  cases hc : (c.block i).next with
  | none =>
    rw [hc] at hv
    obtain ⟨b', hrun, henc⟩ := h.unlinkBefore_run hl hv hw
    rw [if_neg (not_not.mpr (show v = 0 from hv))]
    exact ⟨b', _, hrun, rfl, henc⟩
  | some q =>
    rw [hc] at hv
    obtain ⟨hq, rfl⟩ := id hv
    obtain ⟨b₁, h₁, e₁⟩ := h.setPrev_run hq hw
    obtain ⟨b', hrun, henc⟩ := e₁.unlinkBefore_run hl hv hw
    rw [if_pos Layout.address_ne_zero, EStateM.run_bind, h₁]
    exact ⟨b', _, hrun, rfl, henc⟩

/-! ### Splitting and merging -/

theorem removeBuddyBlock_agree (h : Encodes A b c) {l : ℕ} (hl : l < A.levels)
    (offset blockSize : UInt32) :
    Agree (Encodes A) Eq ((removeBuddyBlock offset l blockSize).run b)
      ((FileTransfer.removeBuddyBlock offset l blockSize).run c) := by
  rw [removeBuddyBlock, FileTransfer.removeBuddyBlock, EStateM.run_bind, EStateM.run_bind,
    h.memPoolGetBlock_run, EStateM.run_get]
  dsimp only
  cases hslot : FileTransfer.memPoolGetBlock c.memPool
      (calcBuddyAllocatorSlot (getBuddyOffset offset blockSize) l blockSize) with
  | error e => exact .error h
  | ok i =>
    have hi := h.slot_lt hslot
    dsimp only
    rw [EStateM.run_bind, h.getActive_run hi]
    dsimp only
    rw [EStateM.run_bind, h.getAllocated_run hi]
    dsimp only
    by_cases hfree : (!(c.block i).isActive || (c.block i).isAllocated) = true
    · rw [if_pos hfree, if_pos hfree]
      exact .ok h rfl
    · rw [if_neg hfree, if_neg hfree]
      obtain ⟨b₁, c₁, hb₁, hc₁, e₁⟩ := h.linkedListExtractBlock_run hi hl
      obtain ⟨b₂, hb₂, e₂⟩ := e₁.setActive_run hi false
      simp only [EStateM.run_bind, hb₁, hc₁, hb₂, run_modify]
      exact .ok e₂ rfl

theorem allocateAtLevel_agree (h : Encodes A b c) {l : ℕ} (hl : l < A.levels) :
    Agree (Encodes A) A.OptionPointer ((allocateAtLevel l).run b)
      ((FileTransfer.allocateAtLevel l).run c) := by
  obtain ⟨v, hhead, hv⟩ := h.getHead_run hl
  rw [allocateAtLevel, FileTransfer.allocateAtLevel, EStateM.run_bind, EStateM.run_bind, hhead,
    EStateM.run_get]
  dsimp only
  cases hc : c.freeList l with
  | none =>
    rw [hc] at hv
    rw [if_pos (show v = 0 from hv)]
    exact .ok h trivial
  | some i =>
    rw [hc] at hv
    obtain ⟨hi, rfl⟩ := hv
    rw [if_neg Layout.address_ne_zero]
    obtain ⟨b₁, c₁, hb₁, hc₁, e₁⟩ := h.linkedListExtractBlock_run hi hl
    obtain ⟨b₂, hb₂, e₂⟩ := e₁.setAllocated_run hi true
    simp only [EStateM.run_bind, hb₁, hc₁, hb₂, run_modify]
    exact .ok e₂ ⟨hi, rfl⟩

theorem findNonEmptyLevel_run (h : Encodes A b c) {l : ℕ} (hl : l < A.levels) :
    (findNonEmptyLevel l).run b = match FileTransfer.findNonEmptyLevel c l with
      | .error e => .error e b
      | .ok k => .ok k b := by
  induction l with
  | zero =>
    obtain ⟨v, hhead, hv⟩ := h.getHead_run hl
    rw [findNonEmptyLevel, FileTransfer.findNonEmptyLevel, EStateM.run_bind, hhead]
    dsimp only
    by_cases hz : c.freeList 0 = none
    · rw [if_pos (hv.eq_zero_iff.mpr hz), if_pos hz]
      rfl
    · rw [if_neg (mt hv.eq_zero_iff.mp hz), if_neg hz]
      rfl
  | succ l ih =>
    obtain ⟨v, hhead, hv⟩ := h.getHead_run hl
    rw [findNonEmptyLevel, FileTransfer.findNonEmptyLevel, EStateM.run_bind, hhead]
    dsimp only
    by_cases hz : c.freeList (l + 1) = none
    · rw [if_pos (hv.eq_zero_iff.mpr hz), if_pos hz]
      exact ih (by omega)
    · rw [if_neg (mt hv.eq_zero_iff.mp hz), if_neg hz]
      rfl

theorem splitLoop_agree (h : Encodes A b c) (offset : UInt32) (levels : List ℕ)
    (hlevels : ∀ l ∈ levels, l < A.levels) (size : UInt32) :
    Agree (Encodes A) Eq ((splitLoop offset levels size).run b)
      ((FileTransfer.splitLoop offset levels size).run c) := by
  induction levels generalizing b c size with
  | nil => exact .ok h rfl
  | cons l levels ih =>
    rw [splitLoop, FileTransfer.splitLoop]
    refine (h.createNewBlock_agree (hlevels l List.mem_cons_self) _ _).bind ?_
    rintro _ i b₁ c₁ e₁ ⟨hi, rfl⟩
    obtain ⟨b₂, c₂, hb₂, hc₂, e₂⟩ := e₁.linkedListAddBlock_run hi
    rw [EStateM.run_bind, EStateM.run_bind, hb₂, hc₂]
    exact ih e₂ (fun k hk => hlevels k (List.mem_cons_of_mem l hk)) _

theorem splitBlockDown_agree (h : Encodes A b c) (source target : ℕ) :
    Agree (Encodes A) (fun p i => A.Pointer p (some i)) ((splitBlockDown source target).run b)
      ((FileTransfer.splitBlockDown source target).run c) := by
  rw [splitBlockDown, FileTransfer.splitBlockDown, EStateM.run_bind, EStateM.run_bind,
    EStateM.run_get, EStateM.run_get]
  dsimp only
  rw [h.numOfLevels, h.levels]
  by_cases hbounds : A.levels ≤ source ∨ A.levels ≤ target ∨ target ≤ source
  · rw [if_pos hbounds, if_pos hbounds]
    exact .error h
  · rw [if_neg hbounds, if_neg hbounds]
    push Not at hbounds
    obtain ⟨hsource, htarget, -⟩ := hbounds
    obtain ⟨v, hhead, hv⟩ := h.getHead_run hsource
    rw [EStateM.run_bind, hhead]
    dsimp only
    cases hc : c.freeList source with
    | none =>
      rw [hc] at hv
      rw [if_pos (show v = 0 from hv)]
      exact .error h
    | some i =>
      rw [hc] at hv
      obtain ⟨hi, rfl⟩ := hv
      rw [if_neg Layout.address_ne_zero]
      obtain ⟨b₁, c₁, hb₁, hc₁, e₁⟩ := h.linkedListExtractBlock_run hi hsource
      obtain ⟨b₂, hb₂, e₂⟩ := e₁.setActive_run hi false
      simp only [EStateM.run_bind, hb₁, hc₁, hb₂, run_modify, e₂.getOffset_run hi, EStateM.run_get]
      rw [e₂.minBlockSize, e₂.numOfLevels, ← EStateM.run_bind, ← EStateM.run_bind]
      refine (e₂.splitLoop_agree _ _ ?_ _).bind ?_
      · intro l hl
        rw [List.mem_range'_1] at hl
        omega
      · rintro size _ b₃ c₃ e₃ rfl
        exact e₃.createNewBlock_agree htarget _ _

theorem mergeLoop_agree (h : Encodes A b c) {l : ℕ} (hl : l < A.levels) (offset size : UInt32) :
    Agree (Encodes A) (fun x y => x = y ∧ x.1 < A.levels) ((mergeLoop l offset size).run b)
      ((FileTransfer.mergeLoop l offset size).run c) := by
  induction l generalizing b c offset size with
  | zero => exact .ok h ⟨rfl, hl⟩
  | succ l ih =>
    rw [mergeLoop, FileTransfer.mergeLoop]
    refine (h.removeBuddyBlock_agree hl _ _).bind ?_
    rintro ⟨buddy, found⟩ _ b₁ c₁ e₁ rfl
    dsimp only
    by_cases hfound : found = true
    · rw [if_pos hfound, if_pos hfound]
      exact ih e₁ (by omega) _ _
    · rw [if_neg hfound, if_neg hfound]
      exact .ok e₁ ⟨rfl, hl⟩

/-! ### The interface -/

theorem addBlock_agree (h : Encodes A b c) {level : ℕ} (hl : level < A.levels)
    (offset blockSize : UInt32) :
    Agree (Encodes A) Eq
      ((createNewBlock level offset blockSize >>= linkedListAddBlock).run b)
      ((FileTransfer.createNewBlock level offset blockSize >>=
        FileTransfer.linkedListAddBlock).run c) := by
  refine (h.createNewBlock_agree hl _ _).bind ?_
  rintro _ i b₁ c₁ e₁ ⟨hi, rfl⟩
  obtain ⟨b₂, c₂, hb₂, hc₂, e₂⟩ := e₁.linkedListAddBlock_run hi
  rw [hb₂, hc₂]
  exact .ok e₂ rfl

theorem getBlockLevel_lt {minBlockSize blockSize : UInt32} {levels l : ℕ} (hlevels : 0 < levels)
    (h : getBlockLevel minBlockSize levels blockSize = .ok l) : l < levels := by
  unfold getBlockLevel at h
  split at h
  · cases h
  · dsimp only at h
    split at h
    · cases h
    · cases h
      omega

theorem allocate_agree (h : Encodes A b c) (hlevels : 0 < A.levels) (blockSize : UInt32) :
    Agree (Encodes A) (fun p i => A.Pointer p (some i)) ((buddyAllocAllocate blockSize).run b)
      ((FileTransfer.buddyAllocAllocate blockSize).run c) := by
  rw [buddyAllocAllocate, FileTransfer.buddyAllocAllocate]
  by_cases hz : blockSize = 0
  · rw [if_pos hz, if_pos hz]
    exact .error h
  rw [if_neg hz, if_neg hz, EStateM.run_bind, EStateM.run_bind, EStateM.run_get, EStateM.run_get]
  dsimp only
  rw [h.minBlockSize, h.numOfLevels]
  cases hlevel : getBlockLevel c.minBlockSize c.numOfLevels (nextPow2 blockSize) with
  | error e => exact .error h
  | ok l =>
    have hl : l < A.levels := by
      rw [h.levels] at hlevel
      exact getBlockLevel_lt hlevels hlevel
    refine (h.allocateAtLevel_agree hl).bind ?_
    intro p q b₁ c₁ e₁ hpq
    cases p with
    | some p =>
      cases q with
      | some q => exact .ok e₁ hpq
      | none => exact hpq.elim
    | none =>
      cases q with
      | some q => exact hpq.elim
      | none =>
        dsimp only
        rw [EStateM.run_bind, EStateM.run_bind, EStateM.run_get, e₁.findNonEmptyLevel_run hl]
        dsimp only
        cases hfind : FileTransfer.findNonEmptyLevel c₁ l with
        | error e => exact .error e₁
        | ok source =>
          refine (e₁.splitBlockDown_agree source l).bind ?_
          rintro _ i b₂ c₂ e₂ ⟨hi, rfl⟩
          obtain ⟨b₃, hb₃, e₃⟩ := e₂.setAllocated_run hi true
          rw [EStateM.run_bind, EStateM.run_bind, hb₃, run_modify]
          exact .ok e₃ ⟨hi, rfl⟩

theorem free_agree (h : Encodes A b c) (hi : i < A.slots.toNat) :
    Agree (Encodes A) Eq ((buddyAllocFree (A.address i)).run b)
      ((FileTransfer.buddyAllocFree i).run c) := by
  have hlevel := (h.block i hi).level_lt
  rw [buddyAllocFree, FileTransfer.buddyAllocFree, EStateM.run_bind, EStateM.run_bind,
    EStateM.run_get, EStateM.run_get]
  dsimp only
  rw [EStateM.run_bind, h.getLevel_run hi]
  dsimp only
  rw [h.numOfLevels, h.levels, h.minBlockSize, if_neg (Nat.not_le.mpr hlevel),
    if_neg (Nat.not_le.mpr hlevel), EStateM.run_bind, h.getOffset_run hi]
  dsimp only
  obtain ⟨b₁, hb₁, e₁⟩ := h.setActive_run hi false
  rw [EStateM.run_bind, EStateM.run_bind, hb₁, run_modify]
  refine (e₁.mergeLoop_agree hlevel _ _).bind ?_
  rintro ⟨l, offset, size⟩ _ b₂ c₂ e₂ ⟨rfl, hl⟩
  exact e₂.addBlock_agree hl _ _

end Encodes
end FileTransfer.PoolMemory
