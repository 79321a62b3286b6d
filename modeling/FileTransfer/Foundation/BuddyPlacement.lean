import FileTransfer.Foundation.BuddySystem

/-! Which node a request is served from, what is left of it, and what giving the node back
restores. -/
namespace Bisection
open Node

namespace Node
variable {n m : Node} {l : ℕ}

theorem firstLeaf_self (n : Node) : firstLeaf n.level n = n := by
  unfold firstLeaf
  rw [Nat.sub_self, pow_zero, mul_one]

theorem firstLeaf_left (h : n.level < l) : firstLeaf l n.left = firstLeaf l n := by
  have hexp : l - n.level = l - (n.level + 1) + 1 := by omega
  unfold firstLeaf left
  dsimp only
  rw [hexp, pow_succ]
  congr 1
  ring

/-- The parts that are cut off when only the first part of level `l` is kept of `n`. -/
def offcuts (l : ℕ) (n : Node) : Set Node :=
  {m | n.level < m.level ∧ m.level ≤ l ∧ m = (firstLeaf (m.level - 1) n).right}

theorem mem_offcuts :
    m ∈ offcuts l n ↔ n.level < m.level ∧ m.level ≤ l ∧ m = (firstLeaf (m.level - 1) n).right :=
  Iff.rfl

theorem offcuts_self (n : Node) : offcuts n.level n = ∅ := by
  rw [Set.eq_empty_iff_forall_notMem]
  intro m hm
  have := hm.1
  have := hm.2.1
  omega

theorem offcuts_left (h : n.level < l) : offcuts l n = insert n.right (offcuts l n.left) := by
  ext m
  rw [Set.mem_insert_iff, mem_offcuts, mem_offcuts, level_left]
  by_cases hm : m.level = n.level + 1
  · have hself : firstLeaf (m.level - 1) n = n := by
      rw [hm, Nat.add_sub_cancel, firstLeaf_self]
    rw [hself]
    constructor
    · intro hcut
      exact Or.inl hcut.2.2
    · intro hcut
      rcases hcut with hcut | hcut
      · exact ⟨by omega, by omega, hcut⟩
      · omega
  · have hright : m ≠ n.right := by
      intro he
      rw [he] at hm
      exact hm rfl
    rw [or_iff_right hright]
    by_cases hlt : n.level + 1 < m.level
    · rw [firstLeaf_left (by omega)]
      constructor
      · intro hcut
        exact ⟨hlt, hcut.2⟩
      · intro hcut
        exact ⟨by omega, hcut.2⟩
    · constructor
      · intro hcut
        omega
      · intro hcut
        omega

end Node

namespace Pool
variable {d l : ℕ} {a a' : Pool} {n t : Node}

/-! ### Where a request is served -/

theorem alloc_eq_none_iff : a.alloc l = none ↔ ∀ k ≤ l, a.free k = [] := by
  cases hs : a.findLevel l with
  | none =>
    rw [alloc_eq_none hs]
    exact iff_of_true rfl (findLevel_eq_none hs)
  | some s =>
    obtain ⟨hsl, hne, -⟩ := findLevel_eq_some hs
    cases hf : a.free s with
    | nil => exact absurd hf hne
    | cons n rest =>
      rw [alloc_eq_some hs hf]
      apply iff_of_false
      · intro h
        cases h
      · exact fun h => hne (h s hsl)

/-- Whoever can be given a small node can be given a smaller one. -/
theorem alloc_ne_none_of_le {k : ℕ} (hk : k ≤ l) (h : a.alloc k ≠ none) : a.alloc l ≠ none := by
  rw [ne_eq, alloc_eq_none_iff] at h ⊢
  exact fun hall => h fun j hj => hall j (hj.trans hk)

/-- A node of the level is handed out exactly if one of them avoids every used node. -/
theorem Inv.alloc_ne_none_iff (h : Inv d ∅ a) (hl : l ≤ d) :
    a.alloc l ≠ none ↔ ∃ n ≤ root, n.level = l ∧ ∀ u ∈ a.used, ¬ Overlap n u := by
  have htiles := h.tiles
  rw [Set.empty_union] at htiles
  rw [ne_eq, alloc_eq_none_iff]
  push Not
  constructor
  · intro hex
    obtain ⟨k, hk, hne⟩ := hex
    obtain ⟨f, hf⟩ := List.exists_mem_of_ne_nil _ hne
    have hfk := h.level_eq k f hf
    have hfree : f ∈ a.freeNodes := by rwa [mem_freeNodes, hfk]
    have hle : firstLeaf l f ≤ f := firstLeaf_le (by omega)
    refine ⟨firstLeaf l f, hle.trans (htiles.le_root f (Or.inl hfree)), rfl, ?_⟩
    intro u hu ho
    have heq := htiles.eq_of_overlap (Or.inl hfree) (Or.inr hu) (ho.mono hle)
    exact Set.disjoint_left.mp h.disjoint hfree (heq ▸ hu)
  · intro hex
    obtain ⟨n, hn, rfl, hno⟩ := hex
    obtain ⟨f, hf, hnf⟩ := exists_free_ge htiles h.coalesced n hn hl hno
    exact ⟨f.level, level_le hnf, List.ne_nil_of_mem hf⟩

/-! ### What is handed out and what is left -/

theorem splitDown_fst {k : ℕ} : (splitDown k n a).1 = firstLeaf (n.level + k) n := by
  induction k generalizing n a with
  | zero => exact (firstLeaf_self n).symm
  | succ k ih =>
    have hlevel : n.left.level + k = n.level + (k + 1) := by
      rw [level_left]
      omega
    rw [splitDown, ih, hlevel, firstLeaf_left (by omega)]

theorem freeNodes_splitDown {k : ℕ} :
    (splitDown k n a).2.freeNodes = offcuts (n.level + k) n ∪ a.freeNodes := by
  induction k generalizing n a with
  | zero =>
    have hcuts := offcuts_self n
    rw [splitDown, Nat.add_zero, hcuts, Set.empty_union]
  | succ k ih =>
    have hlevel : n.left.level + k = n.level + (k + 1) := by
      rw [level_left]
      omega
    rw [splitDown, ih, freeNodes_push, hlevel, offcuts_left (n := n) (by omega),
      Set.insert_union, Set.union_insert]

/-- The node comes first in a free node of the nearest level, of which the offcuts stay free. -/
theorem Inv.alloc_placed (h : Inv d ∅ a) (ha : a.alloc l = some (t, a')) :
    ∃ n ∈ a.freeNodes, n.level ≤ l ∧ (∀ m ∈ a.freeNodes, m.level ≤ l → m.level ≤ n.level) ∧
      t = firstLeaf l n ∧ a'.freeNodes = offcuts l n ∪ a.freeNodes \ {n} := by
  obtain ⟨n, -, hnl, -, hn, hskip, rfl, rfl⟩ := h.alloc_cases ha
  have hl : n.level + (l - n.level) = l := Nat.add_sub_cancel' hnl
  refine ⟨n, hn, hnl, ?_, ?_, ?_⟩
  · intro m hm hml
    by_contra hlt
    rw [mem_freeNodes, hskip m.level (by omega) hml] at hm
    cases hm
  · rw [splitDown_fst, hl]
  · rw [freeNodes_use, freeNodes_splitDown, hl, h.freeNodes_erase]

/-! ### Giving the node back at once -/

theorem erase_push : (a.push n).erase n = a := by
  cases a
  simp [push, erase]

theorem push_erase {rest : List Node} (h : a.free n.level = n :: rest) :
    (a.erase n).push n = a := by
  have hfree : Function.update a.free n.level (n :: rest) = a.free := by
    rw [← h, Function.update_eq_self]
  cases a
  simp only [push, erase] at h hfree ⊢
  rw [h, List.erase_cons_head, Function.update_self, Function.update_idem, hfree]

theorem unuse_use (h : n ∉ a.used) : (a.use n).unuse n = a := by
  have hused : insert n a.used \ {n} = a.used := by
    rw [Set.insert_sdiff_of_mem _ (Set.mem_singleton n), Set.sdiff_singleton_eq_self h]
  cases a
  simp only [use, unuse] at hused ⊢
  rw [hused]

/-- Joining undoes cutting, down to the node that was cut. -/
theorem mergeUp_splitDown (k : ℕ) (n : Node) (a : Pool) :
    mergeUp (n.level + k) (splitDown k n a).1 (splitDown k n a).2 = mergeUp n.level n a := by
  induction k generalizing n a with
  | zero => rfl
  | succ k ih =>
    have hlevel : n.level + (k + 1) = n.left.level + k := by
      rw [level_left]
      omega
    have hbuddy : n.left.buddy ∈ (a.push n.right).free (n.level + 1) := by
      rw [buddy_left, free_push, level_right, if_pos rfl]
      exact List.mem_cons_self
    rw [splitDown, hlevel, ih, level_left, mergeUp, if_pos hbuddy, parent_left, buddy_left,
      erase_push]

theorem mergeUp_of_not_free (h : n.level = 0 ∨ n.buddy ∉ a.free n.level) :
    mergeUp n.level n a = (n, a) := by
  cases hl : n.level with
  | zero => rfl
  | succ l =>
    rw [hl] at h
    rw [mergeUp, if_neg (h.resolve_left (Nat.succ_ne_zero l))]

theorem Inv.buddy_not_free (h : Inv d ∅ a) (hn : n ∈ a.freeNodes) :
    n.level = 0 ∨ n.buddy ∉ a.freeNodes := by
  rcases Nat.eq_zero_or_pos n.level with hz | hpos
  · exact Or.inl hz
  · right
    intro hb
    rcases eq_left_or_right n hpos with he | he
    · rw [he] at hn hb
      rw [buddy_left] at hb
      exact h.coalesced _ ⟨hn, hb⟩
    · rw [he] at hn hb
      rw [buddy_right] at hb
      exact h.coalesced _ ⟨hb, hn⟩

/-- A node that is given back at once leaves the pool as it was, with the lists in their order. -/
theorem Inv.release_alloc (h : Inv d ∅ a) (hl : l ≤ d) (ha : a.alloc l = some (t, a')) :
    a'.release t = a := by
  obtain ⟨-, htl, htu, -⟩ := h.alloc hl ha
  obtain ⟨n, rest, hnl, hf, hn, -, rfl, rfl⟩ := h.alloc_cases ha
  have hused := ((h.erase_free hn).splitDown (k := l - n.level) (by omega)).2.2.2
  have hmerge := mergeUp_splitDown (l - n.level) n (a.erase n)
  rw [Nat.add_sub_cancel' hnl] at hmerge
  have hstop : n.level = 0 ∨ n.buddy ∉ (a.erase n).free n.level := by
    rcases h.buddy_not_free hn with hz | hb
    · exact Or.inl hz
    · right
      rw [free_erase, if_pos rfl]
      exact fun hmem => hb (List.mem_of_mem_erase hmem)
  unfold Pool.release
  rw [unuse_use (by rwa [hused]), htl, hmerge, mergeUp_of_not_free hstop]
  exact push_erase hf

end Pool
end Bisection
