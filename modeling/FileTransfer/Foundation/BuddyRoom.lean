import Mathlib.Algebra.BigOperators.Group.Finset.Basic
import Mathlib.Algebra.Order.BigOperators.Group.Finset
import FileTransfer.Foundation.BuddyPlacement

/-! How much has to be used before a buddy system has no room on a level. A used node takes the
nodes of the level that it overlaps, and those are as many as its size is large. -/
namespace Bisection

namespace Node
variable {l i : ℕ} {u : Node}

/-- The places on a level that a node overlaps. -/
def places (l : ℕ) (u : Node) : Finset ℕ :=
  let first := u.index / 2 ^ (u.level - l) * 2 ^ (l - u.level)
  Finset.Ico first (first + 2 ^ (l - u.level))

theorem card_places : (places l u).card = 2 ^ (l - u.level) := by
  unfold places
  rw [Nat.card_Ico, Nat.add_sub_cancel_left]

theorem mem_places (h : Overlap ⟨l, i⟩ u) : i ∈ places l u := by
  unfold places
  rw [Finset.mem_Ico]
  rcases h with ⟨hle, hdiv⟩ | ⟨hle, hdiv⟩
  · dsimp only at hle hdiv
    have hzero : u.level - l = 0 := Nat.sub_eq_zero_of_le hle
    have hlow := Nat.div_mul_le_self i (2 ^ (l - u.level))
    have hhigh := Nat.lt_div_mul_add (a := i) (Nat.two_pow_pos (l - u.level))
    rw [hdiv] at hlow hhigh
    rw [hzero, pow_zero, Nat.div_one]
    exact ⟨hlow, hhigh⟩
  · dsimp only at hle hdiv
    have hzero : l - u.level = 0 := Nat.sub_eq_zero_of_le hle
    rw [hzero, pow_zero, mul_one, hdiv]
    exact ⟨le_rfl, Nat.lt_succ_self i⟩

/-- Nodes that take fewer places than there are on the level leave one of them. -/
theorem exists_place {ι : Type*} {A : Finset ι} {node : ι → Node}
    (h : ∑ p ∈ A, 2 ^ (l - (node p).level) < 2 ^ l) :
    ∃ i < 2 ^ l, ∀ p ∈ A, ¬ Overlap ⟨l, i⟩ (node p) := by
  have hcard : (A.biUnion fun p => places l (node p)).card < (Finset.range (2 ^ l)).card :=
    calc (A.biUnion fun p => places l (node p)).card
        ≤ ∑ p ∈ A, (places l (node p)).card := Finset.card_biUnion_le
      _ = ∑ p ∈ A, 2 ^ (l - (node p).level) := Finset.sum_congr rfl fun _ _ => card_places
      _ < (Finset.range (2 ^ l)).card := by rwa [Finset.card_range]
  obtain ⟨i, hi, hno⟩ := Finset.exists_mem_notMem_of_card_lt_card hcard
  refine ⟨i, Finset.mem_range.mp hi, ?_⟩
  intro p hp ho
  exact hno (Finset.mem_biUnion.mpr ⟨p, hp, mem_places ho⟩)

end Node

namespace Pool
variable {d l : ℕ} {a : Pool}

theorem Inv.alloc_ne_none_of_sum (h : Inv d ∅ a) (hl : l ≤ d) {ι : Type*} {A : Finset ι}
    {node : ι → Node} (hA : ∀ u ∈ a.used, ∃ p ∈ A, node p = u)
    (hsum : ∑ p ∈ A, 2 ^ (l - (node p).level) < 2 ^ l) : a.alloc l ≠ none := by
  obtain ⟨i, hi, hno⟩ := Node.exists_place hsum
  rw [h.alloc_ne_none_iff hl]
  refine ⟨⟨l, i⟩, Node.le_root_iff.mpr hi, rfl, ?_⟩
  intro u hu
  obtain ⟨p, hp, rfl⟩ := hA u hu
  exact hno p hp

end Pool
end Bisection
