import Mathlib.Data.List.Basic

/-! Traces of a program that uses objects and frees them, the newest event first. -/
namespace Lifetime

section Clean
variable {ε ι : Type*} (uses frees : ε → Option ι)

/-- The objects that were freed, the last one first. -/
def freed (es : List ε) : List ι := es.filterMap frees

/-- No event uses or frees an object that was freed before. -/
def Clean : List ε → Prop
  | [] => True
  | e :: es => (∀ p, uses e = some p ∨ frees e = some p → p ∉ freed frees es) ∧ Clean es

variable {uses frees} {e : ε} {es : List ε} {p : ι}

theorem freed_cons_none (h : frees e = none) : freed frees (e :: es) = freed frees es :=
  List.filterMap_cons_none h

theorem freed_cons_some (h : frees e = some p) : freed frees (e :: es) = p :: freed frees es :=
  List.filterMap_cons_some h

theorem clean_cons_none (hu : uses e = none) (hf : frees e = none) :
    Clean uses frees (e :: es) ↔ Clean uses frees es := by
  rw [Clean, hu, hf]
  simp

theorem clean_cons_uses (hu : uses e = some p) (hf : frees e = none) :
    Clean uses frees (e :: es) ↔ p ∉ freed frees es ∧ Clean uses frees es := by
  rw [Clean, hu, hf]
  simp

theorem clean_cons_frees (hu : uses e = none) (hf : frees e = some p) :
    Clean uses frees (e :: es) ↔ p ∉ freed frees es ∧ Clean uses frees es := by
  rw [Clean, hu, hf]
  simp

/-- A clean trace frees every object at most once, and uses none after it was freed. -/
theorem clean_iff : Clean uses frees es ↔ (freed frees es).Nodup ∧
    ∀ later e earlier p, es = later ++ e :: earlier → uses e = some p →
      p ∉ freed frees earlier := by
  induction es with
  | nil =>
    refine iff_of_true trivial ⟨List.nodup_nil, ?_⟩
    intro later e earlier p hes
    cases later <;> cases hes
  | cons e es ih =>
    have hsplit : (∀ later e' earlier p, e :: es = later ++ e' :: earlier → uses e' = some p →
        p ∉ freed frees earlier) ↔ (∀ p, uses e = some p → p ∉ freed frees es) ∧
          ∀ later e' earlier p, es = later ++ e' :: earlier → uses e' = some p →
            p ∉ freed frees earlier := by
      constructor
      · intro h
        refine ⟨fun p => h [] e es p rfl, fun later e' earlier p hes => ?_⟩
        exact h (e :: later) e' earlier p (congrArg (e :: ·) hes)
      · rintro ⟨hhead, htail⟩ later e' earlier p hes
        cases later with
        | nil =>
          cases hes
          exact hhead p
        | cons x later =>
          cases hes
          exact htail later e' earlier p rfl
    rw [Clean, ih, hsplit]
    cases hf : frees e with
    | none =>
      rw [freed_cons_none hf]
      simp only [reduceCtorEq, or_false]
      tauto
    | some q =>
      rw [freed_cons_some hf, List.nodup_cons]
      simp only [Option.some.injEq]
      constructor
      · rintro ⟨hhead, hnodup, htail⟩
        exact ⟨⟨hhead q (Or.inr rfl), hnodup⟩, fun p hp => hhead p (Or.inl hp), htail⟩
      · rintro ⟨⟨hq, hnodup⟩, hhead, htail⟩
        refine ⟨fun p hp => ?_, hnodup, htail⟩
        rcases hp with hp | rfl
        · exact hhead p hp
        · exact hq

end Clean
end Lifetime
