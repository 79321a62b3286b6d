import FileTransfer.Foundation.Tiling

/-! The buddy system on nodes: one list of free nodes for each level, and the set of
nodes handed out. A node is handed out by cutting the nearest larger free node, and
given back by joining it with its buddy for as long as the buddy is free. -/
namespace Bisection
open Node

structure Pool where
  free : ℕ → List Node
  used : Set Node

namespace Pool

def freeNodes (a : Pool) : Set Node := {n | n ∈ a.free n.level}

def push (n : Node) (a : Pool) : Pool :=
  { a with free := Function.update a.free n.level (n :: a.free n.level) }

def erase (n : Node) (a : Pool) : Pool :=
  { a with free := Function.update a.free n.level ((a.free n.level).erase n) }

def use (n : Node) (a : Pool) : Pool := { a with used := insert n a.used }

def unuse (n : Node) (a : Pool) : Pool := { a with used := a.used \ {n} }

/-- The pool from which the root is taken out, and the pool before anything is handed out. -/
def empty : Pool := ⟨fun _ => [], ∅⟩
def initial : Pool := empty.push root

/-- Halve `n` for `k` times, keeping the left half and freeing the right one. -/
def splitDown : ℕ → Node → Pool → Node × Pool
  | 0, n, a => (n, a)
  | k + 1, n, a => splitDown k n.left (a.push n.right)

/-- Join `n`, a node of the given level, with its buddy while that one is free. -/
def mergeUp : ℕ → Node → Pool → Node × Pool
  | 0, n, a => (n, a)
  | l + 1, n, a =>
    if n.buddy ∈ a.free (l + 1) then mergeUp l n.parent (a.erase n.buddy) else (n, a)

/-- The deepest level not below `l` that has a free node. -/
def findLevel (a : Pool) : ℕ → Option ℕ
  | 0 => if a.free 0 = [] then none else some 0
  | l + 1 => if a.free (l + 1) = [] then findLevel a l else some (l + 1)

def alloc (l : ℕ) (a : Pool) : Option (Node × Pool) :=
  match a.findLevel l with
  | none => none
  | some s =>
    match a.free s with
    | [] => none
    | n :: _ =>
      let r := splitDown (l - s) n (a.erase n)
      some (r.1, r.2.use r.1)

def release (n : Node) (a : Pool) : Pool :=
  let r := mergeUp n.level n (a.unuse n)
  r.2.push r.1

/-- The invariant of a pool from which the nodes of `hole` are taken out: with the hole
filled the free and the used nodes tile the interval, and no two buddies are free. -/
structure Inv (d : ℕ) (hole : Set Node) (a : Pool) : Prop where
  level_eq : ∀ l, ∀ n ∈ a.free l, n.level = l
  nodup : ∀ l, (a.free l).Nodup
  disjoint : Disjoint a.freeNodes a.used
  hole_free : Disjoint hole a.freeNodes
  hole_used : Disjoint hole a.used
  tiles : Tiles d (hole ∪ (a.freeNodes ∪ a.used))
  coalesced : ∀ n : Node, ¬ (n.left ∈ a.freeNodes ∧ n.right ∈ a.freeNodes)

section Membership
variable {a : Pool} {n m : Node}

theorem mem_freeNodes : n ∈ a.freeNodes ↔ n ∈ a.free n.level := Iff.rfl

@[simp] theorem used_push : (a.push n).used = a.used := rfl
@[simp] theorem used_erase : (a.erase n).used = a.used := rfl
@[simp] theorem free_use : (a.use n).free = a.free := rfl
@[simp] theorem free_unuse : (a.unuse n).free = a.free := rfl
@[simp] theorem freeNodes_use : (a.use n).freeNodes = a.freeNodes := rfl
@[simp] theorem freeNodes_unuse : (a.unuse n).freeNodes = a.freeNodes := rfl
@[simp] theorem used_use : (a.use n).used = insert n a.used := rfl
@[simp] theorem used_unuse : (a.unuse n).used = a.used \ {n} := rfl

theorem free_push (l : ℕ) :
    (a.push n).free l = if l = n.level then n :: a.free l else a.free l := by
  simp only [push, Function.update_apply]
  split_ifs with h <;> simp [h]

theorem free_erase (l : ℕ) :
    (a.erase n).free l = if l = n.level then (a.free l).erase n else a.free l := by
  simp only [erase, Function.update_apply]
  split_ifs with h <;> simp [h]

@[simp] theorem freeNodes_push : (a.push n).freeNodes = insert n a.freeNodes := by
  ext m
  simp only [mem_freeNodes, free_push, Set.mem_insert_iff]
  split_ifs with h
  · simp
  · have hne : m ≠ n := fun e => h (congrArg level e)
    simp [hne]

theorem Inv.freeNodes_erase {d : ℕ} {hole : Set Node} (h : Inv d hole a) :
    (a.erase n).freeNodes = a.freeNodes \ {n} := by
  ext m
  simp only [mem_freeNodes, free_erase, Set.mem_sdiff, Set.mem_singleton_iff]
  split_ifs with he
  · rw [(h.nodup m.level).mem_erase_iff]
    exact and_comm
  · have hne : m ≠ n := fun e => he (congrArg level e)
    simp [hne]

end Membership

namespace Inv
variable {d : ℕ} {hole : Set Node} {a : Pool} {n m : Node}

/-- Only the list of the node's own level changes when a node is pushed. -/
theorem lists_push (h : Inv d hole a) (hn : n ∉ a.freeNodes) :
    (∀ l, ∀ m ∈ (a.push n).free l, m.level = l) ∧ ∀ l, ((a.push n).free l).Nodup := by
  refine ⟨fun l m hm => ?_, fun l => ?_⟩
  · rw [free_push] at hm
    split_ifs at hm with hl
    · rcases List.mem_cons.mp hm with rfl | hm
      · exact hl.symm
      · exact h.level_eq l m hm
    · exact h.level_eq l m hm
  · rw [free_push]
    split_ifs with hl
    · subst hl
      exact List.nodup_cons.mpr ⟨hn, h.nodup n.level⟩
    · exact h.nodup l

theorem lists_erase (h : Inv d hole a) :
    (∀ l, ∀ m ∈ (a.erase n).free l, m.level = l) ∧ ∀ l, ((a.erase n).free l).Nodup := by
  refine ⟨fun l m hm => ?_, fun l => ?_⟩
  · rw [free_erase] at hm
    split_ifs at hm with hl
    · exact h.level_eq l m (List.mem_of_mem_erase hm)
    · exact h.level_eq l m hm
  · rw [free_erase]
    split_ifs with hl
    · exact (h.nodup l).erase n
    · exact h.nodup l

/-- A node inside the hole is neither free nor used. -/
theorem not_active_of_overlap (h : Inv d {n} a) (ho : Overlap n m) :
    m ∉ a.freeNodes ∧ m ∉ a.used := by
  have key : m ∉ a.freeNodes ∪ a.used := by
    intro hm
    have heq := h.tiles.eq_of_overlap (Or.inl rfl) (Or.inr hm) ho
    subst heq
    rcases hm with hm | hm
    · exact Set.disjoint_left.mp h.hole_free rfl hm
    · exact Set.disjoint_left.mp h.hole_used rfl hm
  exact ⟨fun hm => key (Or.inl hm), fun hm => key (Or.inr hm)⟩

theorem empty (d : ℕ) : Inv d {root} Pool.empty := by
  have hfree : Pool.empty.freeNodes = ∅ := by
    ext n
    simp [mem_freeNodes, Pool.empty]
  refine ⟨by simp [Pool.empty], by simp [Pool.empty], ?_, ?_, Set.disjoint_empty _, ?_, ?_⟩
  · rw [hfree]
    exact Set.empty_disjoint _
  · rw [hfree]
    exact Set.disjoint_empty _
  · rw [hfree]
    simpa [Pool.empty] using tiles_root d
  · rw [hfree]
    exact fun _ h => h.1

/-! ### Opening, moving and closing the hole -/

/-- Taking a free node off its list opens a hole. -/
theorem erase_free (h : Inv d ∅ a) (hn : n ∈ a.freeNodes) : Inv d {n} (a.erase n) := by
  obtain ⟨hlevel, hnodup⟩ := h.lists_erase (n := n)
  have hfree := h.freeNodes_erase (n := n)
  refine ⟨hlevel, hnodup, ?_, ?_, ?_, ?_, ?_⟩
  · rw [hfree]
    exact h.disjoint.mono_left Set.sdiff_subset
  · rw [hfree]
    exact Set.disjoint_sdiff_right
  · exact Set.disjoint_singleton_left.mpr (Set.disjoint_left.mp h.disjoint hn)
  · have htiles := h.tiles
    rw [Set.empty_union] at htiles
    rwa [hfree, used_erase, ← Set.union_assoc, Set.union_sdiff_cancel
      (Set.singleton_subset_iff.mpr hn)]
  · rw [hfree]
    exact fun k hk => h.coalesced k ⟨hk.1.1, hk.2.1⟩

/-- Taking a used node back opens a hole. -/
theorem unuse_used (h : Inv d ∅ a) (hn : n ∈ a.used) : Inv d {n} (a.unuse n) := by
  refine ⟨h.level_eq, h.nodup, ?_, ?_, ?_, ?_, h.coalesced⟩
  · exact h.disjoint.mono_right Set.sdiff_subset
  · exact Set.disjoint_singleton_left.mpr (Set.disjoint_right.mp h.disjoint hn)
  · exact Set.disjoint_sdiff_right
  · have htiles := h.tiles
    rw [Set.empty_union] at htiles
    rwa [freeNodes_unuse, used_unuse, Set.union_left_comm, Set.union_sdiff_cancel
      (Set.singleton_subset_iff.mpr hn)]

/-- Freeing the right half leaves the left half as the hole. -/
theorem push_right (h : Inv d {n} a) (hl : n.level < d) : Inv d {n.left} (a.push n.right) := by
  have hleft := h.not_active_of_overlap (Or.inr (left_le n))
  have hright := h.not_active_of_overlap (Or.inr (right_le n))
  obtain ⟨hlevel, hnodup⟩ := h.lists_push hright.1
  refine ⟨hlevel, hnodup, ?_, ?_, ?_, ?_, ?_⟩
  · rw [freeNodes_push, used_push, Set.disjoint_insert_left]
    exact ⟨hright.2, h.disjoint⟩
  · rw [freeNodes_push, Set.disjoint_singleton_left]
    rintro (he | he)
    · exact left_ne_right n n he
    · exact hleft.1 he
  · exact Set.disjoint_singleton_left.mpr hleft.2
  · have hn : n ∉ a.freeNodes ∪ a.used := by
      have := h.not_active_of_overlap (Or.inl (le_refl n))
      exact fun hn => hn.elim this.1 this.2
    have := h.tiles.split hn hl
    rwa [freeNodes_push, used_push, Set.insert_union, Set.singleton_union]
  · rw [freeNodes_push]
    rintro k ⟨hkl | hkl, hkr⟩
    · exact left_ne_right k n hkl
    · rcases hkr with hkr | hkr
      · rw [right_inj.mp hkr] at hkl
        exact hleft.1 hkl
      · exact h.coalesced k ⟨hkl, hkr⟩

/-- Taking a free buddy off its list makes the parent the hole. -/
theorem erase_buddy (h : Inv d {n} a) (hl : 0 < n.level) (hb : n.buddy ∈ a.freeNodes) :
    Inv d {n.parent} (a.erase n.buddy) := by
  obtain ⟨hlevel, hnodup⟩ := h.lists_erase (n := n.buddy)
  have hfree := h.freeNodes_erase (n := n.buddy)
  have hself := h.not_active_of_overlap (Or.inl (le_refl n))
  have hbused : n.buddy ∉ a.used := Set.disjoint_left.mp h.disjoint hb
  -- the pair is the two halves of the parent, whichever of them is the hole
  have hpair : ∀ A : Set Node, Tiles d (insert n (insert n.buddy A)) → n ∉ A → n.buddy ∉ A →
      Tiles d (insert n.parent A) := by
    intro A hA hnA hbA
    rcases eq_left_or_right n hl with he | he <;> rw [he] at hA hnA hbA
    · rw [buddy_left] at hA hbA
      rw [he, parent_left]
      exact hA.merge hnA hbA
    · rw [buddy_right] at hA hbA
      rw [he, parent_right]
      rw [Set.insert_comm] at hA
      exact hA.merge hbA hnA
  have htiles : Tiles d (insert n.parent (a.freeNodes \ {n.buddy} ∪ a.used)) := by
    refine hpair _ ?_ ?_ ?_
    · rw [← Set.insert_union, Set.insert_sdiff_singleton, Set.insert_eq_of_mem hb,
        ← Set.singleton_union]
      exact h.tiles
    · rintro (hn | hn)
      · exact hself.1 hn.1
      · exact hself.2 hn
    · rintro (hn | hn)
      · exact hn.2 rfl
      · exact hbused hn
  have hparent : n.parent ∉ a.freeNodes ∪ a.used := by
    have := h.not_active_of_overlap (Or.inl (le_parent n hl))
    exact fun hp => hp.elim this.1 this.2
  refine ⟨hlevel, hnodup, ?_, ?_, ?_, ?_, ?_⟩
  · rw [hfree]
    exact h.disjoint.mono_left Set.sdiff_subset
  · rw [hfree]
    exact Set.disjoint_singleton_left.mpr fun hp => hparent (Or.inl hp.1)
  · exact Set.disjoint_singleton_left.mpr fun hp => hparent (Or.inr hp)
  · rwa [hfree, used_erase, Set.singleton_union]
  · rw [hfree]
    exact fun k hk => h.coalesced k ⟨hk.1.1, hk.2.1⟩

/-- Handing the hole out closes it. -/
theorem use_hole (h : Inv d {n} a) : Inv d ∅ (a.use n) := by
  have hself := h.not_active_of_overlap (Or.inl (le_refl n))
  refine ⟨h.level_eq, h.nodup, ?_, by simp, by simp, ?_, h.coalesced⟩
  · rw [freeNodes_use, used_use, Set.disjoint_insert_right]
    exact ⟨hself.1, h.disjoint⟩
  · have := h.tiles
    rwa [Set.empty_union, freeNodes_use, used_use, Set.union_insert, ← Set.singleton_union]

/-- Freeing the hole closes it, if its buddy is not free. -/
theorem push_hole (h : Inv d {n} a) (hb : n.level = 0 ∨ n.buddy ∉ a.freeNodes) :
    Inv d ∅ (a.push n) := by
  have hself := h.not_active_of_overlap (Or.inl (le_refl n))
  obtain ⟨hlevel, hnodup⟩ := h.lists_push hself.1
  refine ⟨hlevel, hnodup, ?_, by simp, by simp, ?_, ?_⟩
  · rw [freeNodes_push, used_push, Set.disjoint_insert_left]
    exact ⟨hself.2, h.disjoint⟩
  · have := h.tiles
    rwa [Set.empty_union, freeNodes_push, used_push, Set.insert_union, ← Set.singleton_union]
  · rw [freeNodes_push]
    rintro k ⟨hkl | hkl, hkr | hkr⟩
    · exact left_ne_right k k (hkl.trans hkr.symm)
    · rw [← hkl, level_left, buddy_left] at hb
      exact hb.elim (by omega) fun hb => hb hkr
    · rw [← hkr, level_right, buddy_right] at hb
      exact hb.elim (by omega) fun hb => hb hkl
    · exact h.coalesced k ⟨hkl, hkr⟩

theorem initial (d : ℕ) : Inv d ∅ Pool.initial := (empty d).push_hole (Or.inl rfl)

/-- One of two buddies at most is free, so that a level has a free node for each node of the
level above at most. -/
theorem length_free_le (h : Inv d hole a) (l : ℕ) : (a.free l).length ≤ 2 ^ (l - 1) := by
  have hindex : ∀ n ∈ a.free l, n.level = l ∧ n ∈ a.freeNodes ∧ n.index < 2 ^ l := by
    intro n hn
    have hl := h.level_eq l n hn
    have hfree : n ∈ a.freeNodes := by rwa [mem_freeNodes, hl]
    have hroot := le_root_iff.mp (h.tiles.le_root n (Or.inr (Or.inl hfree)))
    exact ⟨hl, hfree, by rwa [hl] at hroot⟩
  have hnd : ((a.free l).map fun n => n.parent.index).Nodup := by
    apply (h.nodup l).map_on
    intro n hn m hm hp
    obtain ⟨hnl, hnf, hni⟩ := hindex n hn
    obtain ⟨hml, hmf, hmi⟩ := hindex m hm
    rcases Nat.eq_zero_or_pos l with hz | hpos
    · rw [hz, pow_zero] at hni hmi
      exact Node.ext (hnl.trans hml.symm) (by omega)
    · have hparent : n.parent = m.parent :=
        Node.ext (by rw [level_parent, level_parent, hnl, hml]) hp
      rcases eq_left_or_right n (by omega) with hn' | hn' <;>
        rcases eq_left_or_right m (by omega) with hm' | hm'
      · rw [hn', hm', hparent]
      · rw [hn', hparent] at hnf
        rw [hm'] at hmf
        exact (h.coalesced _ ⟨hnf, hmf⟩).elim
      · rw [hn', hparent] at hnf
        rw [hm'] at hmf
        exact (h.coalesced _ ⟨hmf, hnf⟩).elim
      · rw [hn', hm', hparent]
  have hsub : ((a.free l).map fun n => n.parent.index) ⊆ List.range (2 ^ (l - 1)) := by
    intro i hi
    obtain ⟨n, hn, rfl⟩ := List.mem_map.mp hi
    obtain ⟨-, -, hni⟩ := hindex n hn
    rw [List.mem_range]
    change n.index / 2 < 2 ^ (l - 1)
    cases l with
    | zero => omega
    | succ l =>
      rw [pow_succ] at hni
      rw [Nat.add_sub_cancel]
      omega
  have hle := (hnd.subperm hsub).length_le
  rwa [List.length_map, List.length_range] at hle

end Inv

/-! ### Handing out and giving back -/

section Runs
variable {d : ℕ} {a : Pool} {n : Node}

theorem Inv.splitDown {k : ℕ} (h : Inv d {n} a) (hd : n.level + k ≤ d) :
    Inv d {(splitDown k n a).1} (splitDown k n a).2 ∧
      (Pool.splitDown k n a).1.level = n.level + k ∧ (Pool.splitDown k n a).1 ≤ n ∧
      (Pool.splitDown k n a).2.used = a.used := by
  induction k generalizing n a with
  | zero => exact ⟨h, rfl, le_rfl, rfl⟩
  | succ k ih =>
    obtain ⟨hinv, hlevel, hle, hused⟩ := ih (h.push_right (by omega))
      (by rw [level_left]; omega)
    exact ⟨hinv, by rw [Pool.splitDown, hlevel, level_left]; omega,
      hle.trans (left_le n), hused⟩

theorem Inv.mergeUp {l : ℕ} (h : Inv d {n} a) (hl : n.level = l) :
    Inv d {(mergeUp l n a).1} (mergeUp l n a).2 ∧ n ≤ (Pool.mergeUp l n a).1 ∧
      ((Pool.mergeUp l n a).1.level = 0 ∨
        (Pool.mergeUp l n a).1.buddy ∉ (Pool.mergeUp l n a).2.freeNodes) ∧
      (Pool.mergeUp l n a).2.used = a.used := by
  induction l generalizing n a with
  | zero => exact ⟨h, le_rfl, Or.inl hl, rfl⟩
  | succ l ih =>
    rw [Pool.mergeUp]
    split_ifs with hb
    · have hb' : n.buddy ∈ a.freeNodes := by rwa [mem_freeNodes, level_buddy, hl]
      obtain ⟨hinv, hle, hstop, hused⟩ := ih (h.erase_buddy (by omega) hb')
        (by rw [level_parent]; omega)
      exact ⟨hinv, (le_parent n (by omega)).trans hle, hstop, hused⟩
    · exact ⟨h, le_rfl, Or.inr (by rwa [mem_freeNodes, level_buddy, hl]), rfl⟩

theorem findLevel_eq_some {l s : ℕ} (h : a.findLevel l = some s) :
    s ≤ l ∧ a.free s ≠ [] ∧ ∀ k, s < k → k ≤ l → a.free k = [] := by
  induction l with
  | zero =>
    simp only [findLevel] at h
    split_ifs at h with he
    obtain rfl : 0 = s := Option.some.inj h
    exact ⟨le_rfl, he, fun k hk hk' => by omega⟩
  | succ l ih =>
    simp only [findLevel] at h
    split_ifs at h with he
    · obtain ⟨hs, hne, hempty⟩ := ih h
      refine ⟨by omega, hne, fun k hk hk' => ?_⟩
      rcases hk'.lt_or_eq with hlt | rfl
      · exact hempty k hk (by omega)
      · exact he
    · obtain rfl : l + 1 = s := Option.some.inj h
      exact ⟨le_rfl, he, fun k hk hk' => by omega⟩

theorem findLevel_eq_none {l : ℕ} (h : a.findLevel l = none) : ∀ k ≤ l, a.free k = [] := by
  induction l with
  | zero =>
    simp only [findLevel] at h
    split_ifs at h with he
    intro k hk
    rwa [Nat.le_zero.mp hk]
  | succ l ih =>
    simp only [findLevel] at h
    split_ifs at h with he
    intro k hk
    rcases hk.lt_or_eq with hlt | rfl
    · exact ih h k (by omega)
    · exact he

theorem alloc_eq_none {l : ℕ} (h : a.findLevel l = none) : a.alloc l = none := by
  simp [Pool.alloc, h]

theorem alloc_eq_some {l s : ℕ} {rest : List Node} (h : a.findLevel l = some s)
    (hs : a.free s = n :: rest) :
    a.alloc l = some ((Pool.splitDown (l - s) n (a.erase n)).1,
      (Pool.splitDown (l - s) n (a.erase n)).2.use (Pool.splitDown (l - s) n (a.erase n)).1) := by
  simp [Pool.alloc, h, hs]

/-- What is handed out is cut from the first free node of the nearest level that has one. -/
theorem Inv.alloc_cases {l : ℕ} {t : Node} {a' : Pool} (h : Inv d ∅ a)
    (ha : a.alloc l = some (t, a')) :
    ∃ n rest, n.level ≤ l ∧ a.free n.level = n :: rest ∧ n ∈ a.freeNodes ∧
      (∀ k, n.level < k → k ≤ l → a.free k = []) ∧
      t = (Pool.splitDown (l - n.level) n (a.erase n)).1 ∧
      a' = (Pool.splitDown (l - n.level) n (a.erase n)).2.use t := by
  cases hs : a.findLevel l with
  | none =>
    rw [alloc_eq_none hs] at ha
    cases ha
  | some s =>
    obtain ⟨hsl, hne, hskip⟩ := findLevel_eq_some hs
    cases hf : a.free s with
    | nil => exact absurd hf hne
    | cons n rest =>
      rw [alloc_eq_some hs hf, Option.some.injEq, Prod.mk.injEq] at ha
      obtain ⟨rfl, rfl⟩ := ha
      obtain rfl : n.level = s := h.level_eq s n (by rw [hf]; exact List.mem_cons_self)
      have hn : n ∈ a.freeNodes := by
        rw [mem_freeNodes, hf]
        exact List.mem_cons_self
      exact ⟨n, rest, hsl, hf, hn, hskip, rfl, rfl⟩

theorem Inv.alloc {l : ℕ} {t : Node} {a' : Pool} (h : Inv d ∅ a) (hl : l ≤ d)
    (ha : a.alloc l = some (t, a')) :
    Inv d ∅ a' ∧ t.level = l ∧ t ∉ a.used ∧ a'.used = insert t a.used := by
  obtain ⟨n, -, hnl, -, hn, -, rfl, rfl⟩ := h.alloc_cases ha
  obtain ⟨hinv, hlevel, -, hused⟩ := (h.erase_free hn).splitDown (k := l - n.level) (by omega)
  have hself := hinv.not_active_of_overlap (Or.inl le_rfl)
  rw [hused] at hself
  exact ⟨hinv.use_hole, by omega, hself.2, by rw [used_use, hused, used_erase]⟩

theorem Inv.release (h : Inv d ∅ a) (hn : n ∈ a.used) :
    Inv d ∅ (a.release n) ∧ (a.release n).used = a.used \ {n} := by
  obtain ⟨hinv, -, hstop, hused⟩ := (h.unuse_used hn).mergeUp rfl
  exact ⟨hinv.push_hole hstop, hused⟩

/-- The free nodes of a pool are the largest nodes that avoid every used one. -/
theorem Inv.mem_freeNodes_iff (h : Inv d ∅ a) (hn : n ≤ root) (hl : n.level ≤ d) :
    n ∈ a.freeNodes ↔
      (∀ u ∈ a.used, ¬ Overlap n u) ∧ (n.level = 0 ∨ ∃ u ∈ a.used, Overlap n.parent u) := by
  have htiles := h.tiles
  rw [Set.empty_union] at htiles
  exact mem_free_iff htiles h.disjoint h.coalesced n hn hl

end Runs
end Pool
end Bisection
