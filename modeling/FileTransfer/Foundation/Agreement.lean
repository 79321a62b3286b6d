import Mathlib.Tactic.Common

/-! Two fallible calls, on objects of different types that correspond, that do the same: both give
a result and the results correspond, or both fail with the same error. -/
namespace Agreement

variable {ε σ τ α β γ δ : Type} {R : σ → τ → Prop} {Q : α → β → Prop} {Q' : γ → δ → Prop}
  {s s' : σ} {t t' : τ} {a : α} {b : β} {e : ε}

/-- The two results agree, and so do the objects they leave behind. -/
inductive Agree (R : σ → τ → Prop) (Q : α → β → Prop) :
    EStateM.Result ε σ α → EStateM.Result ε τ β → Prop
  | ok {a : α} {b : β} {s : σ} {t : τ} (hR : R s t) (hQ : Q a b) : Agree R Q (.ok a s) (.ok b t)
  | error {e : ε} {s : σ} {t : τ} (hR : R s t) : Agree R Q (.error e s) (.error e t)

theorem Agree.bind {x : EStateM ε σ α} {y : EStateM ε τ β} {f : α → EStateM ε σ γ}
    {g : β → EStateM ε τ δ} (h : Agree R Q (x.run s) (y.run t))
    (hf : ∀ a b s t, R s t → Q a b → Agree R Q' ((f a).run s) ((g b).run t)) :
    Agree R Q' ((x >>= f).run s) ((y >>= g).run t) := by
  rw [EStateM.run_bind, EStateM.run_bind]
  cases hx : x.run s with
  | ok a s =>
    rw [hx] at h
    cases hy : y.run t with
    | ok b t =>
      rw [hy] at h
      cases h with
      | ok hR hQ => exact hf a b s t hR hQ
    | error e t =>
      rw [hy] at h
      cases h
  | error e s =>
    rw [hx] at h
    cases hy : y.run t with
    | ok b t =>
      rw [hy] at h
      cases h
    | error e t =>
      rw [hy] at h
      cases h with
      | error hR => exact .error hR

theorem Agree.exists_right {y : EStateM.Result ε τ β} (h : Agree R Q (.ok a s) y) :
    ∃ b t, y = .ok b t ∧ R s t ∧ Q a b := by
  cases h with
  | ok hR hQ => exact ⟨_, _, rfl, hR, hQ⟩

theorem Agree.exists_left {x : EStateM.Result ε σ α} (h : Agree R Q x (.ok b t)) :
    ∃ a s, x = .ok a s ∧ R s t ∧ Q a b := by
  cases h with
  | ok hR hQ => exact ⟨_, _, rfl, hR, hQ⟩

theorem Agree.error_right {y : EStateM.Result ε τ β} (h : Agree R Q (.error e s) y) :
    ∃ t, y = .error e t ∧ R s t := by
  cases h with
  | error hR => exact ⟨_, rfl, hR⟩

theorem Agree.error_left {x : EStateM.Result ε σ α} (h : Agree R Q x (.error e t)) :
    ∃ s, x = .error e s ∧ R s t := by
  cases h with
  | error hR => exact ⟨_, rfl, hR⟩

end Agreement
