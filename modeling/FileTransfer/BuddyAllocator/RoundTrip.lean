import FileTransfer.BuddyAllocator.Requests

/-! A block that is freed at once leaves the allocator as it was, list by list. -/
namespace FileTransfer
open Bisection Intrusive

/-- The blocks that come up when the next pointers are followed from a pointer down to NULL. -/
inductive BuddyAlloc.Walk (b : BuddyAlloc) : Option ℕ → List ℕ → Prop
  | nil : Walk b none []
  | cons {p : ℕ} {xs : List ℕ} (h : Walk b (b.block p).next xs) : Walk b (some p) (p :: xs)

/-- The free lists of every level run through the same blocks, in the same order and with the
same levels and offsets. -/
def BuddyAlloc.SameLists (b c : BuddyAlloc) : Prop :=
  ∀ l, ∃ xs, b.Walk (b.freeList l) xs ∧ c.Walk (c.freeList l) xs ∧
    ∀ p ∈ xs, (b.block p).level = (c.block p).level ∧ (b.block p).offset = (c.block p).offset

theorem walk_of_segment {b : BuddyAlloc} {before ptr last : Option ℕ} {xs : List ℕ}
    (h : Segment b.links before ptr xs last none) : b.Walk ptr xs := by
  induction xs generalizing before ptr with
  | nil =>
    rw [h.2]
    exact .nil
  | cons x xs ih =>
    obtain ⟨hptr, -, hrest⟩ := h
    rw [hptr]
    exact .cons (ih hrest)

namespace Shows
variable {S : Shape} {b c : BuddyAlloc} {a : Pool}

theorem walk (h : Shows S b a) (l : ℕ) : b.Walk (b.freeList l) ((a.free l).map slotOf) := by
  obtain ⟨last, hsegment⟩ := h.lists.isList l
  exact walk_of_segment hsegment

theorem sameLists (hb : Shows S b a) (hc : Shows S c a) (hi : a.Inv S.depth ∅) :
    b.SameLists c := by
  intro l
  refine ⟨(a.free l).map slotOf, hb.walk l, hc.walk l, ?_⟩
  intro p hp
  obtain ⟨n, hn, rfl⟩ := List.mem_map.mp hp
  have hmem : n ∈ a.freeNodes := by rwa [Pool.mem_freeNodes, hi.level_eq l n hn]
  have hbody := hb.block_eq (Or.inl hmem)
  have hbody' := hc.block_eq (Or.inl hmem)
  rw [hbody.1, hbody.2, hbody'.1, hbody'.2]
  exact ⟨rfl, rfl⟩

end Shows

namespace AllocSession

theorem freed_allocated {s : AllocSession} {b c : BuddyAlloc} {p : ℕ} (h : s.live p = none) :
    ((s.allocated b p).freed c p).live = s.live := by
  simp only [allocated, freed, Function.update_idem]
  rw [← h, Function.update_eq_self]

/-- What a request hands out, its release takes back, and repeating it hands out the same. -/
theorem Shows.undo_allocate {S : Shape} {s : AllocSession} {a : Pool} (h : Shows S s a)
    {blockSize : UInt32} {p : ℕ} {b₁ : BuddyAlloc}
    (hrun : (buddyAllocAllocate blockSize).run s.alloc = .ok p b₁) :
    ∃ b₂, (buddyAllocFree p).run b₁ = .ok () b₂ ∧ s.alloc.SameLists b₂ ∧
      ((s.allocated b₁ p).freed b₂ p).live = s.live ∧
      ∃ b₃, (buddyAllocAllocate blockSize).run b₂ = .ok p b₃ ∧
        buddyAllocGetBlockOffset b₃ p = buddyAllocGetBlockOffset b₁ p := by
  obtain ⟨l, hreq, hne⟩ := h.allocate_ok_iff.mp ⟨p, b₁, hrun⟩
  have hl := Shape.requestLevel_le hreq
  obtain ⟨⟨t, a'⟩, ha⟩ := Option.ne_none_iff_exists'.mp hne
  obtain ⟨hinv, -, htu, hused⟩ := h.inv.alloc hl ha
  have ht : t ∈ a'.used := by
    rw [hused]
    exact Set.mem_insert t _
  have hserved : ∀ c, FileTransfer.Shows S c a →
      ∃ c', (buddyAllocAllocate blockSize).run c = .ok (slotOf t) c' ∧ FileTransfer.Shows S c' a' := by
    intro c hc
    have hallocate := hc.allocate_run h.inv blockSize
    simpa only [hreq, ha] using hallocate
  obtain ⟨c, hc₁, hshow₁⟩ := hserved s.alloc h.alloc
  rw [hc₁] at hrun
  cases hrun
  obtain ⟨b₂, hfree, hshow₂⟩ := hshow₁.free_run hinv ht
  rw [h.inv.release_alloc hl ha] at hshow₂
  obtain ⟨b₃, hagain, hshow₃⟩ := hserved b₂ hshow₂
  have hnew := h.live_eq_none (Inv_has hinv (Or.inr ht)) htu
  refine ⟨b₂, hfree, h.alloc.sameLists hshow₂ h.inv, freed_allocated hnew, b₃, hagain, ?_⟩
  unfold buddyAllocGetBlockOffset
  rw [(hshow₃.block_eq (Or.inr ht)).1, (hshow₁.block_eq (Or.inr ht)).1]

end AllocSession
end FileTransfer
