import Mathlib.Logic.Relation
import Mathlib.Tactic.Common

/-! Runs of a deterministic machine whose actions are chosen by its environment.
`exec s a` is the state after action `a`, and `ok s a` says that the environment
may take `a` in `s`. -/
namespace Run

section Reach
variable {σ α : Type*} {ok : σ → α → Prop} {exec : σ → α → σ} {s₀ s : σ}

/-- The states reached from `s₀` by admissible actions. -/
inductive Reach (ok : σ → α → Prop) (exec : σ → α → σ) (s₀ : σ) : σ → Prop
  | start : Reach ok exec s₀ s₀
  | step {s : σ} (hs : Reach ok exec s₀ s) (a : α) (ha : ok s a) : Reach ok exec s₀ (exec s a)

/-- An invariant of the start state that every admissible action keeps holds everywhere. -/
theorem Reach.invariant (P : σ → Prop) (h : Reach ok exec s₀ s) (h0 : P s₀)
    (hstep : ∀ s a, P s → ok s a → P (exec s a)) : P s := by
  induction h with
  | start => exact h0
  | step _ a ha ih => exact hstep _ a ih ha

/-- Each action of a list is admissible in its turn. -/
def Allowed (ok : σ → α → Prop) (exec : σ → α → σ) : σ → List α → Prop
  | _, [] => True
  | s, a :: as => ok s a ∧ Allowed ok exec (exec s a) as

instance Allowed.decidable [∀ s a, Decidable (ok s a)] :
    ∀ s as, Decidable (Allowed ok exec s as)
  | _, [] => inferInstanceAs (Decidable True)
  | s, a :: as =>
    have := Allowed.decidable (exec s a) as
    inferInstanceAs (Decidable (ok s a ∧ Allowed ok exec (exec s a) as))

theorem Reach.foldl (h : Reach ok exec s₀ s) (as : List α) (has : Allowed ok exec s as) :
    Reach ok exec s₀ (as.foldl exec s) := by
  induction as generalizing s with
  | nil => exact h
  | cons a as ih => exact ih (h.step a has.1) has.2

/-- Where every admissible action is matched by one of a second machine, every run is. -/
theorem Reach.simulates {τ β : Type*} {ok' : τ → β → Prop} {exec' : τ → β → τ} {R : σ → τ → Prop}
    (hstep : ∀ s t a, R s t → ok s a → ∃ b, ok' t b ∧ R (exec s a) (exec' t b)) {t₀ : τ}
    (h : Reach ok exec s₀ s) (h0 : R s₀ t₀) : ∃ t, Reach ok' exec' t₀ t ∧ R s t := by
  induction h with
  | start => exact ⟨t₀, .start, h0⟩
  | step _ a ha ih =>
    obtain ⟨t, ht, hR⟩ := ih
    obtain ⟨b, hb, hR'⟩ := hstep _ t a hR ha
    exact ⟨_, ht.step b hb, hR'⟩

end Reach

section Outputs
variable {σ τ α β : Type*}

/-- What a machine that answers every action answers along a list of actions. -/
def outputs (step : σ → α → β × σ) : σ → List α → List β
  | _, [] => []
  | s, a :: as => (step s a).1 :: outputs step (step s a).2 as

/-- The state after a list of actions. -/
def final (step : σ → α → β × σ) : σ → List α → σ
  | s, [] => s
  | s, a :: as => final step (step s a).2 as

/-- Two machines related step by step give the same answers and stay related. -/
theorem outputs_eq_of_simulation {f : σ → α → β × σ} {g : τ → α → β × τ} {R : σ → τ → Prop}
    (hstep : ∀ s t a, R s t → (f s a).1 = (g t a).1 ∧ R (f s a).2 (g t a).2)
    {s : σ} {t : τ} (h : R s t) (as : List α) :
    outputs f s as = outputs g t as ∧ R (final f s as) (final g t as) := by
  induction as generalizing s t with
  | nil => exact ⟨rfl, h⟩
  | cons a as ih =>
    obtain ⟨ho, hR⟩ := hstep s t a h
    obtain ⟨hos, hRs⟩ := ih hR
    exact ⟨by rw [outputs, outputs, ho, hos], hRs⟩

/-- The same where the second machine says which actions its environment may take. -/
theorem outputs_eq_of_allowed {f : σ → α → β × σ} {g : τ → α → β × τ} {R : σ → τ → Prop}
    {ok : τ → α → Prop}
    (hstep : ∀ s t a, R s t → ok t a → (f s a).1 = (g t a).1 ∧ R (f s a).2 (g t a).2)
    {s : σ} {t : τ} (h : R s t) (as : List α) (has : Allowed ok (fun t a => (g t a).2) t as) :
    outputs f s as = outputs g t as ∧ R (final f s as) (final g t as) := by
  induction as generalizing s t with
  | nil => exact ⟨rfl, h⟩
  | cons a as ih =>
    obtain ⟨ho, hR⟩ := hstep s t a h has.1
    obtain ⟨hos, hRs⟩ := ih hR has.2
    exact ⟨by rw [outputs, outputs, ho, hos], hRs⟩

/-- The answers to the actions of one kind, along a list of all of them. -/
def outputsOf (step : σ → α → β × σ) (own : α → Bool) : σ → List α → List β
  | _, [] => []
  | s, a :: as =>
    if own a then (step s a).1 :: outputsOf step own (step s a).2 as
    else outputsOf step own (step s a).2 as

/-- The actions of the kind `own` see a part of the machine that behaves as a machine of its own,
and the other actions leave that part alone: then the answers are those of the part on its own. -/
theorem outputsOf_eq_outputs {γ : Type*} {f : σ → α → β × σ} {g : τ → γ → β × τ}
    {own : α → Option γ} {R : σ → τ → Prop}
    (hown : ∀ s t a c, R s t → own a = some c →
      (f s a).1 = (g t c).1 ∧ R (f s a).2 (g t c).2)
    (hother : ∀ s t a, R s t → own a = none → R (f s a).2 t)
    {s : σ} {t : τ} (h : R s t) (as : List α) :
    outputsOf f (fun a => (own a).isSome) s as = outputs g t (as.filterMap own) := by
  induction as generalizing s t with
  | nil => rfl
  | cons a as ih =>
    unfold outputsOf
    cases hc : own a with
    | none =>
      rw [List.filterMap_cons_none hc]
      exact ih (hother s t a h hc)
    | some c =>
      obtain ⟨ho, hR⟩ := hown s t a c h hc
      rw [List.filterMap_cons_some hc, outputs, ← ho, ← ih hR]
      rfl

end Outputs
end Run
