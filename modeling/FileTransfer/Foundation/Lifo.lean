import Mathlib.Data.List.Nodup
import Mathlib.Tactic

/-! A pool of distinct ids that hands out the id given back last. Its state is the stack of
the ids that are in. -/
namespace Lifo

inductive Op (α : Type*)
  | take
  | give (a : α)
deriving DecidableEq, Repr

inductive Answer (α : Type*)
  | taken (a : α)
  | given
  | exhausted
  | alreadyIn
  | foreign
deriving DecidableEq, Repr

section Step
variable {α : Type*} [DecidableEq α] {ids stack : List α} {a : α}

def take : List α → Answer α × List α
  | [] => (.exhausted, [])
  | a :: stack => (.taken a, stack)

def give (ids stack : List α) (a : α) : Answer α × List α :=
  if a ∉ ids then (.foreign, stack)
  else if a ∈ stack then (.alreadyIn, stack)
  else (.given, a :: stack)

def step (ids stack : List α) : Op α → Answer α × List α
  | .take => take stack
  | .give a => give ids stack a

theorem give_foreign (ha : a ∉ ids) : give ids stack a = (.foreign, stack) := if_pos ha

theorem give_alreadyIn (ha : a ∈ ids) (hs : a ∈ stack) :
    give ids stack a = (.alreadyIn, stack) := by
  rw [give, if_neg (not_not.mpr ha), if_pos hs]

theorem give_given (ha : a ∈ ids) (hs : a ∉ stack) : give ids stack a = (.given, a :: stack) := by
  rw [give, if_neg (not_not.mpr ha), if_neg hs]

/-- The ids that are out. -/
def out (ids stack : List α) : List α := ids.filter (· ∉ stack)

theorem mem_out : a ∈ out ids stack ↔ a ∈ ids ∧ a ∉ stack := by
  simp [out]

/-- The stack holds ids of the pool, each at most once. -/
structure Valid (ids stack : List α) : Prop where
  nodup : stack.Nodup
  subset : stack ⊆ ids

namespace Valid

omit [DecidableEq α] in
theorem full (h : ids.Nodup) : Valid ids ids := ⟨h, List.Subset.refl ids⟩

omit [DecidableEq α] in
theorem tail (h : Valid ids (a :: stack)) : Valid ids stack :=
  ⟨h.nodup.of_cons, fun _ hb => h.subset (List.mem_cons_of_mem a hb)⟩

omit [DecidableEq α] in
theorem cons (h : Valid ids stack) (ha : a ∈ ids) (hs : a ∉ stack) : Valid ids (a :: stack) :=
  ⟨List.nodup_cons.mpr ⟨hs, h.nodup⟩, List.cons_subset.mpr ⟨ha, h.subset⟩⟩

/-- No id is lost: each is in or out. -/
theorem length_out (h : Valid ids stack) (hids : ids.Nodup) :
    (out ids stack).length + stack.length = ids.length := by
  have hin : (ids.filter (· ∈ stack)).Perm stack := by
    rw [List.perm_ext_iff_of_nodup (hids.filter _) h.nodup]
    intro a
    rw [List.mem_filter, decide_eq_true_eq]
    exact ⟨fun ha => ha.2, fun ha => ⟨h.subset ha, ha⟩⟩
  have hsum := List.length_eq_length_filter_add (l := ids) (· ∈ stack)
  have hnot : ids.filter (fun a => !decide (a ∈ stack)) = out ids stack := by
    unfold out
    congr 1
    funext a
    rw [decide_not]
  rw [hin.length_eq, hnot] at hsum
  omega

end Valid

end Step
end Lifo
