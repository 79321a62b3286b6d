import FileTransfer.BuddyAllocator.Invariants

/-! The count of the free blocks of a level, for any level that a caller may ask for. -/
namespace FileTransfer
open Bisection Intrusive Run

/-- `while (cur) { ++count; cur = cur->next; }`, or `none` if it takes more rounds than given.
The counter is an `int`. -/
def countNext (b : BuddyAlloc) : ℕ → Option ℕ → UInt32 → Option UInt32
  | _, none, count => some count
  | 0, some _, _ => none
  | rounds + 1, some cur, count => countNext b rounds (b.block cur).next (count + 1)

/-- There are no free lists from `num_of_levels` on, and `level` is not tested. -/
def buddyAllocCountFreeBlocks (rounds : ℕ) (b : BuddyAlloc) (level : UInt32) :
    Option (Except Errno UInt32) :=
  if b.numOfLevels ≤ level.toNat then some (.error .outOfBounds)
  else (countNext b rounds (b.freeList level.toNat) 0).map .ok

namespace BuddyAlloc
variable (b : BuddyAlloc)

/-- The active slots of a level that are not allocated. -/
def freeSlots (l : ℕ) : Finset ℕ :=
  {p ∈ Finset.range b.memPool.numOfElements.toNat |
    (b.block p).isActive = true ∧ (b.block p).isAllocated = false ∧ (b.block p).level = l}

variable {b} in
theorem mem_freeSlots {l p : ℕ} : p ∈ b.freeSlots l ↔
    b.Active p ∧ (b.block p).isAllocated = false ∧ (b.block p).level = l := by
  rw [freeSlots, Finset.mem_filter, Finset.mem_range, Active, and_assoc]

/-- The call ends, reads no list that is not there, and gives the number of free blocks of the
level, which is an `int`, or an error if there is no such level. -/
def CountsExactly (level : UInt32) : Prop :=
  ∃ answer, (∀ rounds ≥ b.memPool.numOfElements.toNat,
      buddyAllocCountFreeBlocks rounds b level = some answer) ∧
    answer ≠ .error .outOfBounds ∧
    if level.toNat < b.numOfLevels then
      ∃ count, answer = .ok count ∧ count.toNat = (b.freeSlots level.toNat).card ∧
        count.toNat < 2 ^ 31
    else ∃ e, answer = .error e

end BuddyAlloc

/-- The walk along a list counts its elements. -/
theorem countNext_segment {b : BuddyAlloc} {before ptr after : Option ℕ} {xs : List ℕ}
    {rounds : ℕ} {count : UInt32} (h : Segment b.links before ptr xs after none)
    (hr : xs.length ≤ rounds) :
    countNext b rounds ptr count = some (count + UInt32.ofNat xs.length) := by
  induction xs generalizing before ptr rounds count with
  | nil =>
    rw [h.2, countNext, List.length_nil]
    exact congrArg some (UInt32.add_zero count).symm
  | cons x xs ih =>
    obtain ⟨r, rfl⟩ : ∃ r, rounds = r + 1 := by
      rw [List.length_cons] at hr
      exact ⟨rounds - 1, by omega⟩
    obtain ⟨hptr, -, htail⟩ := h
    rw [List.length_cons] at hr
    have hrest : countNext b r (b.links.next x) (count + 1) =
        some (count + 1 + UInt32.ofNat xs.length) := ih htail (Nat.le_of_succ_le_succ hr)
    rw [hptr, countNext, show (b.block x).next = b.links.next x from rfl, hrest, List.length_cons,
      UInt32.ofNat_add, UInt32.add_assoc, UInt32.add_comm 1]
    rfl

namespace Shows
variable {S : Shape} {b : BuddyAlloc} {a : Pool} {l : ℕ}

theorem freeSlots_eq (h : Shows S b a) (hi : a.Inv S.depth ∅) :
    b.freeSlots l = ((a.free l).map slotOf).toFinset := by
  ext p
  rw [BuddyAlloc.mem_freeSlots, List.mem_toFinset, h.mem_map_free hi]

theorem card_freeSlots (h : Shows S b a) (hi : a.Inv S.depth ∅) :
    (b.freeSlots l).card = (a.free l).length := by
  rw [h.freeSlots_eq hi, List.toFinset_card_of_nodup (h.lists.nodup l), List.length_map]

theorem countNext_eq (h : Shows S b a) (hi : a.Inv S.depth ∅) {rounds : ℕ}
    (hr : b.memPool.numOfElements.toNat ≤ rounds) :
    countNext b rounds (b.freeList l) 0 = some (UInt32.ofNat (a.free l).length) := by
  obtain ⟨last, hlist⟩ := h.lists.isList l
  have hslots : (a.free l).length ≤ b.memPool.numOfElements.toNat := by
    rw [← h.card_freeSlots hi]
    exact (Finset.card_filter_le _ _).trans (Finset.card_range _).le
  have hlen : ((a.free l).map slotOf).length = (a.free l).length := List.length_map ..
  rw [countNext_segment hlist (by omega), hlen, UInt32.zero_add]

/-- The count of a level that there is. -/
theorem count_eq (h : Shows S b a) (hi : a.Inv S.depth ∅) {level : UInt32}
    (hl : level.toNat < b.numOfLevels) {rounds : ℕ}
    (hr : b.memPool.numOfElements.toNat ≤ rounds) :
    buddyAllocCountFreeBlocks rounds b level =
      some (.ok (UInt32.ofNat (b.freeSlots level.toNat).card)) := by
  rw [buddyAllocCountFreeBlocks, if_neg (Nat.not_le.mpr hl), h.countNext_eq hi hr,
    h.card_freeSlots hi]
  rfl

theorem card_freeSlots_lt (h : Shows S b a) (hi : a.Inv S.depth ∅) (hl : l < b.numOfLevels) :
    (b.freeSlots l).card < 2 ^ 31 := by
  have hle := hi.length_free_le l
  have hlevels := S.levels_le
  rw [h.numOfLevels] at hl
  rw [h.card_freeSlots hi]
  calc (a.free l).length ≤ 2 ^ (l - 1) := hle
    _ < 2 ^ 31 := Nat.pow_lt_pow_right (by omega) (by omega)

theorem countsExactly_iff (h : Shows S b a) (hi : a.Inv S.depth ∅) (level : UInt32) :
    b.CountsExactly level ↔ level.toNat < b.numOfLevels := by
  constructor
  · intro hexact
    by_contra hl
    obtain ⟨answer, hall, hne, -⟩ := hexact
    have hread := hall _ le_rfl
    rw [buddyAllocCountFreeBlocks, if_pos (Nat.not_lt.mp hl)] at hread
    exact hne (Option.some.inj hread).symm
  · intro hl
    have hlt := h.card_freeSlots_lt hi hl
    have hword : (UInt32.ofNat (b.freeSlots level.toNat).card).toNat =
        (b.freeSlots level.toNat).card := Word.toNat_ofNat (by omega)
    refine ⟨_, fun rounds hr => h.count_eq hi hl hr, by simp, ?_⟩
    rw [if_pos hl]
    exact ⟨_, rfl, hword, by rwa [hword]⟩

end Shows

namespace AllocSession

/-- The size of the block that a handle stands for, or zero if it is not live. -/
def liveSize (s : AllocSession) (p : ℕ) : ℕ :=
  match s.live p with
  | some (level, _) => s.alloc.blockSize level
  | none => 0

/-- The counted blocks and the live blocks, all of which are slots of the pool, make up the
`total` bytes of the pool. -/
structure Conserves (total : ℕ) (s : AllocSession) : Prop where
  live_slot : ∀ p, s.live p ≠ none → p < s.alloc.memPool.numOfElements.toNat
  sum : ∀ count : ℕ → UInt32, (∀ l < s.alloc.numOfLevels,
      buddyAllocCountFreeBlocks s.alloc.memPool.numOfElements.toNat s.alloc (UInt32.ofNat l) =
        some (.ok (count l))) →
    ∑ l ∈ Finset.range s.alloc.numOfLevels, (count l).toNat * s.alloc.blockSize l +
      ∑ p ∈ Finset.range s.alloc.memPool.numOfElements.toNat, s.liveSize p = total

section Sums
variable {s : AllocSession} {total : ℕ}

/-- The active slots. -/
def activeSlots (s : AllocSession) : Finset ℕ :=
  {p ∈ Finset.range s.alloc.memPool.numOfElements.toNat | (s.alloc.block p).isActive = true}

theorem mem_activeSlots {p : ℕ} : p ∈ s.activeSlots ↔ s.alloc.Active p := by
  rw [activeSlots, Finset.mem_filter, Finset.mem_range, BuddyAlloc.Active]

theorem BlocksTile.sum_active (h : BlocksTile total s) :
    ∑ p ∈ s.activeSlots, s.alloc.blockSize (s.alloc.block p).level = total := by
  apply Bisection.sum_lengths_of_cover fun p hp => h.inside p (mem_activeSlots.mp hp)
  intro x hx
  simp only [mem_activeSlots]
  exact h.cover x hx

/-- The live handles are the active slots that are allocated. -/
theorem BlocksTile.sum_live (h : BlocksTile total s) :
    ∑ p ∈ Finset.range s.alloc.memPool.numOfElements.toNat, s.liveSize p =
      ∑ p ∈ s.activeSlots with (s.alloc.block p).isAllocated = true,
        s.alloc.blockSize (s.alloc.block p).level := by
  have hsub : {p ∈ s.activeSlots | (s.alloc.block p).isAllocated = true} ⊆
      Finset.range s.alloc.memPool.numOfElements.toNat :=
    (Finset.filter_subset _ _).trans (Finset.filter_subset _ _)
  have hzero : ∀ p ∈ Finset.range s.alloc.memPool.numOfElements.toNat,
      p ∉ {p ∈ s.activeSlots | (s.alloc.block p).isAllocated = true} → s.liveSize p = 0 := by
    intro p _ hp
    unfold liveSize
    cases hlive : s.live p with
    | none => rfl
    | some r =>
      obtain ⟨hactive, hal, -⟩ := (h.live p r.1 r.2).mp hlive
      exact absurd (Finset.mem_filter.mpr ⟨mem_activeSlots.mpr hactive, hal⟩) hp
  have hsize : ∀ p ∈ {p ∈ s.activeSlots | (s.alloc.block p).isAllocated = true},
      s.liveSize p = s.alloc.blockSize (s.alloc.block p).level := by
    intro p hp
    obtain ⟨hactive, hal⟩ := Finset.mem_filter.mp hp
    have hlive := (h.live p _ _).mpr ⟨mem_activeSlots.mp hactive, hal, rfl, rfl⟩
    unfold liveSize
    rw [hlive]
  rw [← Finset.sum_subset hsub hzero]
  exact Finset.sum_congr rfl hsize

/-- And the active slots that are not allocated are counted level by level. -/
theorem sum_free (hl : ∀ p, s.alloc.Active p → (s.alloc.block p).level < s.alloc.numOfLevels) :
    ∑ p ∈ s.activeSlots with ¬ (s.alloc.block p).isAllocated = true,
        s.alloc.blockSize (s.alloc.block p).level =
      ∑ l ∈ Finset.range s.alloc.numOfLevels, (s.alloc.freeSlots l).card * s.alloc.blockSize l := by
  have hmaps : ∀ p ∈ {p ∈ s.activeSlots | ¬ (s.alloc.block p).isAllocated = true},
      (s.alloc.block p).level ∈ Finset.range s.alloc.numOfLevels := by
    intro p hp
    exact Finset.mem_range.mpr (hl p (mem_activeSlots.mp (Finset.mem_filter.mp hp).1))
  rw [← Finset.sum_fiberwise_of_maps_to hmaps]
  apply Finset.sum_congr rfl
  intro l _
  have hfree : {p ∈ {p ∈ s.activeSlots | ¬ (s.alloc.block p).isAllocated = true} |
      (s.alloc.block p).level = l} = s.alloc.freeSlots l := by
    ext p
    rw [Finset.mem_filter, Finset.mem_filter, mem_activeSlots, BuddyAlloc.mem_freeSlots,
      Bool.not_eq_true, and_assoc]
  rw [hfree]
  apply Finset.sum_const_nat
  intro p hp
  rw [(BuddyAlloc.mem_freeSlots.mp hp).2.2]

end Sums

theorem Shows.conserves {S : Shape} {s : AllocSession} {a : Pool} (h : Shows S s a) :
    Conserves (2 ^ S.top) s := by
  have htile := h.blocksTile
  have hlevel : ∀ p, s.alloc.Active p → (s.alloc.block p).level < s.alloc.numOfLevels := by
    intro p hp
    obtain ⟨n, hn, rfl⟩ := (h.alloc.active_iff h.inv).mp hp
    rw [(h.alloc.block_eq hn).2, h.alloc.numOfLevels]
    exact Nat.lt_succ_of_le (Inv_has h.inv hn).2
  constructor
  · intro p hp
    exact (h.active_of_live hp).1
  · intro count hcount
    have hcard : ∀ l ∈ Finset.range s.alloc.numOfLevels,
        (count l).toNat * s.alloc.blockSize l =
          (s.alloc.freeSlots l).card * s.alloc.blockSize l := by
      intro l hl
      rw [Finset.mem_range] at hl
      have hword : (UInt32.ofNat l).toNat = l := by
        apply Word.toNat_ofNat
        have := S.levels_le
        rw [h.alloc.numOfLevels] at hl
        omega
      have hcounted := hcount l hl
      have hlt := h.alloc.card_freeSlots_lt h.inv hl
      rw [h.alloc.count_eq h.inv (by rwa [hword]) le_rfl, hword, Option.some_inj,
        Except.ok.injEq] at hcounted
      rw [← hcounted, Word.toNat_ofNat (by omega)]
    rw [Finset.sum_congr rfl hcard, ← sum_free hlevel, htile.sum_live, add_comm,
      Finset.sum_filter_add_sum_filter_not]
    exact htile.sum_active

end AllocSession
end FileTransfer
