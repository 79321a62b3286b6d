import Mathlib.Data.Multiset.AddSub
import Mathlib.Data.Multiset.Count
import Mathlib.Data.Multiset.UnionInter
import FileTransfer.Foundation.Lifetime

/-! A ledger of objects: each of those that a program made has either been freed, once, or is
still owned by it. Owning an object is what permits using and freeing it. -/
namespace Lifetime

section Ledger
variable {ε ι : Type*} (makes uses frees : ε → Option ι)

/-- The objects that were made, the last one first. -/
def made (es : List ε) : List ι := es.filterMap makes

/-- The trace is clean, no object was made twice, and those that were not freed are owned. -/
structure Owned (es : List ε) (owned : Multiset ι) : Prop where
  clean : Clean uses frees es
  nodup : (made makes es).Nodup
  balance : (made makes es : Multiset ι) = freed frees es + owned

/-- Each object that was made has been freed once, and none was used or freed after that. -/
structure Settled [DecidableEq ι] (es : List ε) : Prop where
  once : ∀ p ∈ made makes es, (freed frees es).count p = 1
  clean : Clean uses frees es

variable {makes uses frees} {es : List ε} {owned : Multiset ι} {e : ε} {p : ι}

theorem Owned.nil : Owned makes uses frees [] 0 := ⟨trivial, List.nodup_nil, rfl⟩

theorem made_cons_none (h : makes e = none) : made makes (e :: es) = made makes es :=
  List.filterMap_cons_none h

theorem made_cons_some (h : makes e = some p) : made makes (e :: es) = p :: made makes es :=
  List.filterMap_cons_some h

/-- What is owned has not been freed. -/
theorem Owned.notMem_freed (h : Owned makes uses frees es owned) (hp : p ∈ owned) :
    p ∉ freed frees es := by
  have hnodup : ((freed frees es : Multiset ι) + owned).Nodup := by
    rw [← h.balance]
    exact h.nodup
  intro hfreed
  exact Multiset.disjoint_left.mp (Multiset.nodup_add.mp hnodup).2.2 hfreed hp

theorem Owned.make (h : Owned makes uses frees es owned) (hm : makes e = some p)
    (hu : uses e = none) (hf : frees e = none) (hnew : p ∉ made makes es) :
    Owned makes uses frees (e :: es) (p ::ₘ owned) := by
  constructor
  · exact (clean_cons_none hu hf).mpr h.clean
  · rw [made_cons_some hm]
    exact h.nodup.cons hnew
  · rw [made_cons_some hm, freed_cons_none hf, Multiset.add_cons, ← h.balance, Multiset.cons_coe]

theorem Owned.use (h : Owned makes uses frees es owned) (hp : p ∈ owned) (hm : makes e = none)
    (hu : uses e = some p) (hf : frees e = none) : Owned makes uses frees (e :: es) owned := by
  constructor
  · exact (clean_cons_uses hu hf).mpr ⟨h.notMem_freed hp, h.clean⟩
  · rw [made_cons_none hm]
    exact h.nodup
  · rw [made_cons_none hm, freed_cons_none hf]
    exact h.balance

theorem Owned.free (h : Owned makes uses frees es (p ::ₘ owned)) (hm : makes e = none)
    (hu : uses e = none) (hf : frees e = some p) : Owned makes uses frees (e :: es) owned := by
  constructor
  · exact (clean_cons_frees hu hf).mpr ⟨h.notMem_freed (Multiset.mem_cons_self p owned), h.clean⟩
  · rw [made_cons_none hm]
    exact h.nodup
  · rw [made_cons_none hm, freed_cons_some hf, h.balance, ← Multiset.cons_coe, Multiset.add_cons,
      Multiset.cons_add]

theorem Owned.nodup_owned (h : Owned makes uses frees es owned) : owned.Nodup := by
  have hnodup : ((freed frees es : Multiset ι) + owned).Nodup := by
    rw [← h.balance]
    exact h.nodup
  exact (Multiset.nodup_add.mp hnodup).2.1

/-- Nothing is owed when nothing is owned. -/
theorem Owned.settled [DecidableEq ι] (h : Owned makes uses frees es 0) :
    Settled makes uses frees es := by
  constructor
  · intro p hp
    have hcount := congrArg (Multiset.count p) h.balance
    rw [Multiset.add_zero, Multiset.coe_count, Multiset.coe_count] at hcount
    rw [← hcount]
    exact List.count_eq_one_of_mem h.nodup hp
  · exact h.clean

theorem Owned.settled_iff [DecidableEq ι] (h : Owned makes uses frees es owned) :
    Settled makes uses frees es ↔ owned = 0 := by
  constructor
  · intro hsettled
    rw [Multiset.eq_zero_iff_forall_notMem]
    intro p hp
    have hmade : p ∈ made makes es := by
      rw [← Multiset.mem_coe, h.balance]
      exact Multiset.mem_add.mpr (Or.inr hp)
    have honce := hsettled.once p hmade
    rw [List.count_eq_zero_of_not_mem (h.notMem_freed hp)] at honce
    exact absurd honce Nat.zero_ne_one
  · rintro rfl
    exact h.settled

end Ledger
end Lifetime
