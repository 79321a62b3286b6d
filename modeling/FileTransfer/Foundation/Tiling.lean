import FileTransfer.Foundation.Bisection

/-! Sets of nodes that tile the interval, and their coarsest form: a tiling whose
free nodes never contain two halves of one node. -/
namespace Bisection
open Node

/-- Every part of level `d` lies inside exactly one node of `A`. -/
structure Tiles (d : ℕ) (A : Set Node) : Prop where
  le_root : ∀ n ∈ A, n ≤ root
  level_le : ∀ n ∈ A, n.level ≤ d
  cover : ∀ c, c ≤ root → c.level = d → ∃! n, n ∈ A ∧ c ≤ n

theorem tiles_root (d : ℕ) : Tiles d {root} where
  le_root n hn := by rw [Set.mem_singleton_iff.mp hn]
  level_le n hn := by rw [Set.mem_singleton_iff.mp hn]; exact d.zero_le
  cover c hc _ := ⟨root, ⟨rfl, hc⟩, fun n hn => hn.1⟩

namespace Tiles
variable {d : ℕ} {A : Set Node} {n m : Node}

/-- Members of a tiling overlap only when they are equal. -/
theorem eq_of_le (h : Tiles d A) (hn : n ∈ A) (hm : m ∈ A) (hle : n ≤ m) : n = m := by
  have hc := firstLeaf_le (h.level_le n hn)
  exact (h.cover (firstLeaf d n) (hc.trans (h.le_root n hn)) rfl).unique ⟨hn, hc⟩
    ⟨hm, hc.trans hle⟩

theorem eq_of_overlap (h : Tiles d A) (hn : n ∈ A) (hm : m ∈ A) (ho : Overlap n m) : n = m :=
  ho.elim (h.eq_of_le hn hm) fun hle => (h.eq_of_le hm hn hle).symm

/-- Cutting a member in two keeps a tiling. -/
theorem split (h : Tiles d (insert n A)) (hn : n ∉ A) (hl : n.level < d) :
    Tiles d (insert n.left (insert n.right A)) := by
  have hroot : n ≤ root := h.le_root n (Set.mem_insert n A)
  refine ⟨?_, ?_, ?_⟩
  · rintro m (rfl | rfl | hm)
    · exact (left_le n).trans hroot
    · exact (right_le n).trans hroot
    · exact h.le_root m (Set.mem_insert_of_mem n hm)
  · rintro m (rfl | rfl | hm)
    · exact hl
    · exact hl
    · exact h.level_le m (Set.mem_insert_of_mem n hm)
  · intro c hc hcd
    obtain ⟨k, ⟨hk, hck⟩, huniq⟩ := h.cover c hc hcd
    rcases hk with rfl | hk
    · have hne : c ≠ k := by rintro rfl; omega
      -- no other member contains `c`, so its half of `k` is the only one left
      have hother : ∀ m ∈ A, ¬ c ≤ m := fun m hm hcm =>
        hn ((huniq m ⟨Set.mem_insert_of_mem k hm, hcm⟩) ▸ hm)
      rcases (le_iff_eq_or_le_half.mp hck).resolve_left hne with hl' | hr'
      · refine ⟨k.left, ⟨by simp, hl'⟩, ?_⟩
        rintro m ⟨rfl | rfl | hm, hcm⟩
        · rfl
        · exact (not_le_left_and_right hl' hcm).elim
        · exact (hother m hm hcm).elim
      · refine ⟨k.right, ⟨by simp, hr'⟩, ?_⟩
        rintro m ⟨rfl | rfl | hm, hcm⟩
        · exact (not_le_left_and_right hcm hr').elim
        · rfl
        · exact (hother m hm hcm).elim
    · refine ⟨k, ⟨by simp [hk], hck⟩, ?_⟩
      have hnc : ¬ c ≤ n := fun hcn =>
        hn ((huniq n ⟨Set.mem_insert n A, hcn⟩) ▸ hk)
      rintro m ⟨rfl | rfl | hm, hcm⟩
      · exact (hnc (hcm.trans (left_le n))).elim
      · exact (hnc (hcm.trans (right_le n))).elim
      · exact huniq m ⟨Set.mem_insert_of_mem n hm, hcm⟩

/-- Joining the two halves of a node keeps a tiling. -/
theorem merge (h : Tiles d (insert n.left (insert n.right A))) (hl : n.left ∉ A)
    (hr : n.right ∉ A) : Tiles d (insert n A) := by
  have hd : n.level < d := h.level_le n.left (by simp)
  have hroot : n ≤ root := by
    have hlr := le_root_iff.mp (h.le_root n.left (by simp))
    refine le_root_iff.mpr ?_
    simp only [left, pow_succ] at hlr
    omega
  refine ⟨?_, ?_, ?_⟩
  · rintro m (rfl | hm)
    · exact hroot
    · exact h.le_root m (by simp [hm])
  · rintro m (rfl | hm)
    · exact hd.le
    · exact h.level_le m (by simp [hm])
  · intro c hc hcd
    obtain ⟨k, ⟨hk, hck⟩, huniq⟩ := h.cover c hc hcd
    have hmem : ∀ m ∈ A, m ∈ insert n.left (insert n.right A) := fun m hm => by simp [hm]
    have hhalf : (k = n.left ∨ k = n.right) → ∃! m, m ∈ insert n A ∧ c ≤ m := by
      intro hk'
      have hkA : k ∉ A := by rcases hk' with rfl | rfl <;> assumption
      have hcn : c ≤ n := by
        rcases hk' with rfl | rfl
        · exact hck.trans (left_le n)
        · exact hck.trans (right_le n)
      refine ⟨n, ⟨by simp, hcn⟩, ?_⟩
      rintro m ⟨rfl | hm, hcm⟩
      · rfl
      · exact (hkA (huniq m ⟨hmem m hm, hcm⟩ ▸ hm)).elim
    rcases hk with rfl | rfl | hk
    · exact hhalf (Or.inl rfl)
    · exact hhalf (Or.inr rfl)
    · refine ⟨k, ⟨by simp [hk], hck⟩, ?_⟩
      rintro m ⟨rfl | hm, hcm⟩
      · have hne : c ≠ m := by rintro rfl; omega
        rcases (le_iff_eq_or_le_half.mp hcm).resolve_left hne with hl' | hr'
        · exact (hl (huniq m.left ⟨by simp, hl'⟩ ▸ hk)).elim
        · exact (hr (huniq m.right ⟨by simp, hr'⟩ ▸ hk)).elim
      · exact huniq m ⟨hmem m hm, hcm⟩

end Tiles

/-! ### The coarsest division of what is not used -/

section Coarsest
variable {d : ℕ} {F U : Set Node}

/-- Where only free nodes overlap `n`, one of them contains `n`: otherwise the free
nodes below `n` would contain two halves of one node. -/
theorem exists_free_ge (h : Tiles d (F ∪ U)) (hF : ∀ k : Node, ¬ (k.left ∈ F ∧ k.right ∈ F))
    (n : Node) (hn : n ≤ root) (hl : n.level ≤ d) (hU : ∀ u ∈ U, ¬ Overlap n u) :
    ∃ f ∈ F, n ≤ f := by
  induction hk : d - n.level generalizing n with
  | zero =>
    obtain ⟨f, ⟨hf, hnf⟩, -⟩ := h.cover n hn (by omega)
    exact ⟨f, hf.resolve_right fun hu => hU f hu (Or.inl hnf), hnf⟩
  | succ k ih =>
    have hhalf : ∀ c : Node, c ≤ n → c.level = n.level + 1 → ∃ f ∈ F, c ≤ f := fun c hc hcl =>
      ih c (hc.trans hn) (by omega) (fun u hu ho => hU u hu (ho.mono hc)) (by omega)
    obtain ⟨f, hf, hlf⟩ := hhalf n.left (left_le n) rfl
    obtain ⟨g, hg, hrg⟩ := hhalf n.right (right_le n) rfl
    by_contra hno
    have hbelow : ∀ c : Node, c ≤ n → c.level = n.level + 1 → ∀ f ∈ F, c ≤ f → f = c := by
      intro c hc hcl f hf hcf
      rcases le_total_of_le hcf hc with hfn | hnf
      · refine (eq_of_le_of_level_le hcf ?_).symm
        by_contra hlt
        have heq := eq_of_le_of_level_le hfn (by omega)
        exact hno ⟨f, hf, heq.ge⟩
      · exact (hno ⟨f, hf, hnf⟩).elim
    rw [hbelow _ (left_le n) rfl f hf hlf] at hf
    rw [hbelow _ (right_le n) rfl g hg hrg] at hg
    exact hF n ⟨hf, hg⟩

/-- The free nodes are the largest ones that avoid every used node. -/
theorem mem_free_iff (h : Tiles d (F ∪ U)) (hFU : Disjoint F U)
    (hF : ∀ k : Node, ¬ (k.left ∈ F ∧ k.right ∈ F)) (n : Node) (hn : n ≤ root)
    (hl : n.level ≤ d) :
    n ∈ F ↔ (∀ u ∈ U, ¬ Overlap n u) ∧ (n.level = 0 ∨ ∃ u ∈ U, Overlap n.parent u) := by
  constructor
  · intro hnF
    refine ⟨fun u hu ho => ?_, ?_⟩
    · have := h.eq_of_overlap (Or.inl hnF) (Or.inr hu) ho
      exact Set.disjoint_left.mp hFU hnF (this ▸ hu)
    · by_contra hno
      push Not at hno
      obtain ⟨hpos, hpar⟩ := hno
      have hnp := le_parent n (by omega)
      have hroot : n.parent ≤ root := by
        have := le_root_iff.mp hn
        refine le_root_iff.mpr ?_
        obtain ⟨k, hk⟩ : ∃ k, n.level = k + 1 := ⟨n.level - 1, by omega⟩
        simp only [parent, hk, Nat.add_sub_cancel]
        rw [hk, pow_succ] at this
        omega
      obtain ⟨f, hf, hpf⟩ := exists_free_ge h hF n.parent hroot
        (by rw [level_parent]; omega) hpar
      have heq := h.eq_of_le (Or.inl hnF) (Or.inl hf) (hnp.trans hpf)
      have := level_le hpf
      rw [← heq, level_parent] at this
      omega
  · rintro ⟨hno, hpar⟩
    obtain ⟨f, hf, hnf⟩ := exists_free_ge h hF n hn hl hno
    rcases hpar with hz | ⟨u, hu, ho⟩
    · exact (eq_of_le_of_level_le hnf (by omega)) ▸ hf
    · by_contra hnF
      have hlt : f.level < n.level := by
        refine (level_le hnf).lt_of_ne fun heq => hnF ?_
        exact (eq_of_le_of_level_le hnf heq.ge) ▸ hf
      -- a strictly larger free node would contain the parent and meet `u`
      have hpf : n.parent ≤ f := by
        rcases le_total_of_le (le_parent n (by omega)) hnf with hle | hle
        · exact hle
        · have := level_le hle
          rw [level_parent] at this
          exact (eq_of_le_of_level_le hle (by rw [level_parent]; omega)).ge
      have := h.eq_of_overlap (Or.inl hf) (Or.inr hu) (ho.mono hpf)
      exact Set.disjoint_left.mp hFU hf (this ▸ hu)

end Coarsest

/-! ### Ranges that tile an interval -/

/-- Ranges that cover every point below `total` once, and no other point, add up to `total`. -/
theorem sum_lengths_of_cover {ι : Type*} {A : Finset ι} {start len : ι → ℕ} {total : ℕ}
    (hinside : ∀ i ∈ A, start i + len i ≤ total)
    (hcover : ∀ x < total, ∃! i, i ∈ A ∧ start i ≤ x ∧ x < start i + len i) :
    ∑ i ∈ A, len i = total := by
  classical
  have hunion : (A.biUnion fun i => Finset.Ico (start i) (start i + len i)) =
      Finset.range total := by
    ext x
    simp only [Finset.mem_biUnion, Finset.mem_Ico, Finset.mem_range]
    constructor
    · rintro ⟨i, hi, hx⟩
      exact hx.2.trans_le (hinside i hi)
    · intro hx
      obtain ⟨i, ⟨hi, hix⟩, -⟩ := hcover x hx
      exact ⟨i, hi, hix⟩
  have hdisj : (A : Set ι).PairwiseDisjoint fun i => Finset.Ico (start i) (start i + len i) := by
    intro i hi j hj hne
    apply Finset.disjoint_left.mpr
    intro x hix hjx
    rw [Finset.mem_Ico] at hix hjx
    have hx : x < total := hix.2.trans_le (hinside i hi)
    exact hne ((hcover x hx).unique ⟨hi, hix⟩ ⟨hj, hjx⟩)
  calc ∑ i ∈ A, len i = ∑ i ∈ A, (Finset.Ico (start i) (start i + len i)).card := by
        simp only [Nat.card_Ico, Nat.add_sub_cancel_left]
    _ = (A.biUnion fun i => Finset.Ico (start i) (start i + len i)).card :=
        (Finset.card_biUnion hdisj).symm
    _ = total := by rw [hunion, Finset.card_range]

end Bisection
