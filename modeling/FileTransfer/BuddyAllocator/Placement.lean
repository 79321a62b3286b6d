import FileTransfer.BuddyAllocator.Create

/-! An allocator stays where it is in memory: no call on it changes the addresses of its parts. -/
namespace FileTransfer

theorem placement_setActive (p : ℕ) (isActive : Bool) (b : BuddyAlloc) :
    (b.setActive p isActive).placement = b.placement := rfl

theorem placement_setAllocated (p : ℕ) (isAllocated : Bool) (b : BuddyAlloc) :
    (b.setAllocated p isAllocated).placement = b.placement := rfl

theorem createNewBlock_preserves (level : ℕ) (offset blockSize : UInt32) :
    Preserves BuddyAlloc.placement (createNewBlock level offset blockSize) :=
  createNewBlock_placement level offset blockSize

theorem linkedListAddBlock_preserves (p : ℕ) :
    Preserves BuddyAlloc.placement (linkedListAddBlock p) := linkedListAddBlock_placement p

theorem linkedListExtractBlock_preserves (p level : ℕ) :
    Preserves BuddyAlloc.placement (linkedListExtractBlock p level) := by
  apply Preserves.modified
  intro b
  cases (b.block p).next <;> cases (b.block p).prev <;> rfl

theorem removeBuddyBlock_preserves (offset : UInt32) (level : ℕ) (blockSize : UInt32) :
    Preserves BuddyAlloc.placement (removeBuddyBlock offset level blockSize) := by
  unfold removeBuddyBlock
  apply Preserves.get_bind
  intro b
  cases memPoolGetBlock b.memPool
    (calcBuddyAllocatorSlot (getBuddyOffset offset blockSize) level blockSize) with
  | error e => exact .of_keeps (.throw e)
  | ok p =>
    apply Preserves.ite
    · exact .of_keeps (.pure _)
    · apply (linkedListExtractBlock_preserves p level).bind
      intro _
      apply Preserves.modified_bind (placement_setActive p false)
      exact .of_keeps (.pure _)

theorem allocateAtLevel_preserves (level : ℕ) :
    Preserves BuddyAlloc.placement (allocateAtLevel level) := by
  unfold allocateAtLevel
  apply Preserves.get_bind
  intro b
  cases b.freeList level with
  | none => exact .of_keeps (.pure _)
  | some p =>
    apply (linkedListExtractBlock_preserves p level).bind
    intro _
    apply Preserves.modified_bind (placement_setAllocated p true)
    exact .of_keeps (.pure _)

theorem splitLoop_preserves (offset : UInt32) (levels : List ℕ) (size : UInt32) :
    Preserves BuddyAlloc.placement (splitLoop offset levels size) := by
  induction levels generalizing size with
  | nil => exact .of_keeps (.pure _)
  | cons level levels ih =>
    apply (createNewBlock_preserves level _ _).bind
    intro p
    apply (linkedListAddBlock_preserves p).bind
    intro _
    exact ih _

theorem splitBlockDown_preserves (srcLevel targetLevel : ℕ) :
    Preserves BuddyAlloc.placement (splitBlockDown srcLevel targetLevel) := by
  unfold splitBlockDown
  apply Preserves.get_bind
  intro b
  apply Preserves.ite
  · exact .of_keeps (.throw _)
  · cases b.freeList srcLevel with
    | none => exact .of_keeps (.throw _)
    | some p =>
      apply (linkedListExtractBlock_preserves p srcLevel).bind
      intro _
      apply Preserves.modified_bind (placement_setActive p false)
      apply Preserves.get_bind
      intro c
      apply (splitLoop_preserves _ _ _).bind
      intro size
      exact createNewBlock_preserves _ _ _

theorem mergeLoop_preserves (level : ℕ) (offset size : UInt32) :
    Preserves BuddyAlloc.placement (mergeLoop level offset size) := by
  induction level generalizing offset size with
  | zero => exact .of_keeps (.pure _)
  | succ level ih =>
    apply (removeBuddyBlock_preserves offset (level + 1) size).bind
    rintro ⟨buddyOffset, buddyExist⟩
    apply Preserves.ite
    · exact ih _ _
    · exact .of_keeps (.pure _)

theorem buddyAllocAllocate_preserves (blockSize : UInt32) :
    Preserves BuddyAlloc.placement (buddyAllocAllocate blockSize) := by
  unfold buddyAllocAllocate
  apply Preserves.ite
  · exact .of_keeps (.throw _)
  apply Preserves.get_bind
  intro b
  cases getBlockLevel b.minBlockSize b.numOfLevels (nextPow2 blockSize) with
  | error e => exact .of_keeps (.throw e)
  | ok level =>
    apply (allocateAtLevel_preserves level).bind
    intro r
    cases r with
    | some p => exact .of_keeps (.pure p)
    | none =>
      apply Preserves.get_bind
      intro c
      cases findNonEmptyLevel c level with
      | error e => exact .of_keeps (.throw e)
      | ok srcLevel =>
        apply (splitBlockDown_preserves srcLevel level).bind
        intro p
        apply Preserves.modified_bind (placement_setAllocated p true)
        exact .of_keeps (.pure p)

theorem buddyAllocFree_preserves (block : ℕ) :
    Preserves BuddyAlloc.placement (buddyAllocFree block) := by
  unfold buddyAllocFree
  apply Preserves.get_bind
  intro b
  apply Preserves.ite
  · exact .of_keeps (.throw _)
  apply Preserves.modified_bind (placement_setActive block false)
  apply (mergeLoop_preserves _ _ _).bind
  rintro ⟨level, offset, size⟩
  apply (createNewBlock_preserves level offset size).bind
  intro p
  exact linkedListAddBlock_preserves p

end FileTransfer
