import Mathlib.Data.Set.Insert
import Mathlib.Data.Nat.Bitwise
import Mathlib.Tactic
import Mathlib.Order.CompletePartialOrder

/-! Repeated halving of an interval. A node is one of the `2 ^ level` equal parts
left after `level` halvings, and `n ≤ m` says that part `n` lies inside part `m`. -/
namespace Bisection

/-- The part with number `index` among the parts of one level. -/
@[ext] structure Node where
  level : ℕ
  index : ℕ
deriving DecidableEq, Repr

namespace Node

/-- The whole interval. -/
def root : Node := ⟨0, 0⟩

def left (n : Node) : Node := ⟨n.level + 1, 2 * n.index⟩
def right (n : Node) : Node := ⟨n.level + 1, 2 * n.index + 1⟩
def parent (n : Node) : Node := ⟨n.level - 1, n.index / 2⟩

/-- The other half of the parent. -/
def buddy (n : Node) : Node := ⟨n.level, n.index ^^^ 1⟩

@[simp] theorem level_left (n : Node) : n.left.level = n.level + 1 := rfl
@[simp] theorem level_right (n : Node) : n.right.level = n.level + 1 := rfl
@[simp] theorem level_parent (n : Node) : n.parent.level = n.level - 1 := rfl
@[simp] theorem level_buddy (n : Node) : n.buddy.level = n.level := rfl
@[simp] theorem parent_left (n : Node) : n.left.parent = n := by
  ext <;> simp [left, parent]
@[simp] theorem parent_right (n : Node) : n.right.parent = n := by
  ext <;> simp [right, parent]; omega

theorem xor_one (k : ℕ) : k ^^^ 1 = if k % 2 = 0 then k + 1 else k - 1 := by
  split
  · exact Nat.xor_one_of_even (Nat.even_iff.mpr ‹_›)
  · exact Nat.xor_one_of_odd (Nat.odd_iff.mpr (by omega))

@[simp] theorem buddy_left (n : Node) : n.left.buddy = n.right := by
  ext <;> simp [left, right, buddy]
@[simp] theorem buddy_right (n : Node) : n.right.buddy = n.left := by
  ext <;> simp [left, right, buddy, xor_one, Nat.add_mod]
@[simp] theorem buddy_buddy (n : Node) : n.buddy.buddy = n := by
  ext <;> simp [buddy]

/-- A node below the root is a half of its parent. -/
theorem eq_left_or_right (n : Node) (h : 0 < n.level) :
    n = n.parent.left ∨ n = n.parent.right := by
  rcases Nat.mod_two_eq_zero_or_one n.index with hz | ho
  · left
    ext <;> simp [left, parent] <;> omega
  · right
    ext <;> simp [right, parent] <;> omega

theorem left_ne_right (n m : Node) : n.left ≠ m.right := by
  intro h
  have := congrArg index h
  simp only [left, right] at this
  omega

@[simp] theorem left_inj {n m : Node} : n.left = m.left ↔ n = m :=
  ⟨fun h => by rw [← parent_left n, h, parent_left], fun h => h ▸ rfl⟩

@[simp] theorem right_inj {n m : Node} : n.right = m.right ↔ n = m :=
  ⟨fun h => by rw [← parent_right n, h, parent_right], fun h => h ▸ rfl⟩

/-! ### Inclusion -/

instance : LE Node := ⟨fun n m => m.level ≤ n.level ∧ n.index / 2 ^ (n.level - m.level) = m.index⟩

theorem le_def {n m : Node} :
    n ≤ m ↔ m.level ≤ n.level ∧ n.index / 2 ^ (n.level - m.level) = m.index := Iff.rfl

instance : DecidableLE Node := fun _ _ => inferInstanceAs (Decidable (_ ∧ _))

theorem level_le {n m : Node} (h : n ≤ m) : m.level ≤ n.level := h.1

theorem eq_of_le_of_level_le {n m : Node} (h : n ≤ m) (hl : n.level ≤ m.level) : n = m := by
  obtain ⟨h1, h2⟩ := h
  have hz : n.level - m.level = 0 := by omega
  rw [hz, pow_zero, Nat.div_one] at h2
  exact Node.ext (by omega) h2

instance : PartialOrder Node where
  le_refl n := by simp [le_def]
  le_trans a b c hab hbc := by
    obtain ⟨h1, h2⟩ := hab
    obtain ⟨h3, h4⟩ := hbc
    refine ⟨h3.trans h1, ?_⟩
    rw [show a.level - c.level = (a.level - b.level) + (b.level - c.level) by omega, pow_add,
      ← Nat.div_div_eq_div_mul, h2, h4]
  le_antisymm a b hab hba := eq_of_le_of_level_le hab (level_le hba)

theorem le_root_iff {n : Node} : n ≤ root ↔ n.index < 2 ^ n.level := by
  simp [le_def, root]

theorem left_le (n : Node) : n.left ≤ n := by
  simp [le_def, left]

theorem right_le (n : Node) : n.right ≤ n := by
  simp only [le_def, right, Nat.add_sub_cancel_left, pow_one]
  omega

theorem le_parent (n : Node) (h : 0 < n.level) : n ≤ n.parent := by
  simp only [le_def, parent, show n.level - (n.level - 1) = 1 by omega, pow_one]
  exact ⟨n.level.sub_le 1, trivial⟩

/-- Parts with a common part are nested. -/
theorem le_total_of_le {c n m : Node} (hn : c ≤ n) (hm : c ≤ m) : n ≤ m ∨ m ≤ n := by
  wlog hl : m.level ≤ n.level generalizing n m
  · exact (this hm hn (by omega)).symm
  left
  obtain ⟨h1, h2⟩ := hn
  obtain ⟨h3, h4⟩ := hm
  refine ⟨hl, ?_⟩
  rw [← h2, Nat.div_div_eq_div_mul, ← pow_add,
    show c.level - n.level + (n.level - m.level) = c.level - m.level by omega, h4]

/-- What lies inside a node is the node or lies inside one half of it. -/
theorem le_iff_eq_or_le_half {c n : Node} : c ≤ n ↔ c = n ∨ c ≤ n.left ∨ c ≤ n.right := by
  constructor
  · intro h
    rcases (level_le h).eq_or_lt with heq | hlt
    · exact Or.inl (eq_of_le_of_level_le h heq.ge)
    · right
      obtain ⟨-, h2⟩ := h
      have hd : c.index / 2 ^ (c.level - (n.level + 1)) / 2 = n.index := by
        rw [Nat.div_div_eq_div_mul, ← pow_succ,
          show c.level - (n.level + 1) + 1 = c.level - n.level by omega, h2]
      rcases Nat.mod_two_eq_zero_or_one (c.index / 2 ^ (c.level - (n.level + 1))) with hz | ho
      · exact Or.inl ⟨hlt, by simp only [left]; omega⟩
      · exact Or.inr ⟨hlt, by simp only [right]; omega⟩
  · rintro (rfl | h | h)
    · exact le_rfl
    · exact h.trans (left_le n)
    · exact h.trans (right_le n)

theorem not_le_left_and_right {c n : Node} (hl : c ≤ n.left) (hr : c ≤ n.right) : False := by
  have := hl.2.symm.trans (show _ = n.right.index from hr.2)
  simp only [left, right] at this
  omega

/-- Two parts that share a part. -/
def Overlap (n m : Node) : Prop := n ≤ m ∨ m ≤ n

theorem Overlap.mono {n m k : Node} (h : Overlap n m) (hk : n ≤ k) : Overlap k m := by
  rcases h with h | h
  · exact le_total_of_le hk h
  · exact Or.inr (h.trans hk)

/-- The first part of level `d` inside a node. -/
def firstLeaf (d : ℕ) (n : Node) : Node := ⟨d, n.index * 2 ^ (d - n.level)⟩

theorem firstLeaf_le {d : ℕ} {n : Node} (h : n.level ≤ d) : firstLeaf d n ≤ n :=
  ⟨h, Nat.mul_div_cancel _ (by positivity)⟩

end Node
end Bisection
