import Mathlib.Tactic

/-! Calls of the C code. A call on an object returns zero and its out-parameters, or the
negative of an error number; either way it leaves an object behind. -/
namespace FileTransfer

/-- The error numbers the code returns, where `EIOERR` is the number of an input or output error.
`outOfBounds` is none of them, but stands for an access outside of an array, after which the
behaviour of C is undefined. -/
inductive Errno
  | EINVAL | ENOMEM | ENFILE | ENOENT | EALREADY | ESPIPE | EACCES | EPERM | EFBIG | EIOERR
  | outOfBounds
deriving DecidableEq, Repr

/-- A call on an object of type `σ`; after an error the object is what the call made of it. -/
abbrev Call (σ α : Type) := EStateM Errno σ α

/-- Calling a function and looking at its return code. -/
def attempt {σ α : Type} (x : Call σ α) : Call σ (Except Errno α) := fun s =>
  match x.run s with
  | .ok a s => .ok (.ok a) s
  | .error e s => .ok (.error e) s

/-- A call as a step of a machine: its answer, and the object after it. -/
def answer {σ α : Type} (x : Call σ α) (s : σ) : Except Errno α × σ :=
  match x.run s with
  | .ok a s => (.ok a, s)
  | .error e s => (.error e, s)

/-- A call on a part of the object. -/
def zoom {σ τ α : Type} (part : σ → τ) (put : σ → τ → σ) (x : Call τ α) : Call σ α := fun s =>
  match x.run (part s) with
  | .ok a t => .ok a (put s t)
  | .error e t => .error e (put s t)

section Run
variable {σ τ α β : Type}

@[simp] theorem run_throw (e : Errno) (s : σ) :
    EStateM.run (throw e : Call σ α) s = .error e s := rfl

@[simp] theorem run_modify (f : σ → σ) (s : σ) :
    EStateM.run (modify f : Call σ Unit) s = .ok () (f s) := rfl

@[simp] theorem run_map (f : α → β) (x : Call σ α) (s : σ) :
    EStateM.run (f <$> x) s = match EStateM.run x s with
      | .ok a s => .ok (f a) s
      | .error e s => .error e s := by
  simp only [EStateM.run, Functor.map, EStateM.map]
  cases x s <;> rfl

theorem attempt_run (x : Call σ α) (s : σ) : (attempt x).run s = match x.run s with
    | .ok a s => .ok (.ok a) s
    | .error e s => .ok (.error e) s := rfl

theorem answer_ok {x : Call σ α} {s s' : σ} {a : α} (h : x.run s = .ok a s') :
    answer x s = (.ok a, s') := by
  rw [answer, h]

theorem answer_error {x : Call σ α} {s s' : σ} {e : Errno} (h : x.run s = .error e s') :
    answer x s = (.error e, s') := by
  rw [answer, h]

/-- From a run that succeeds back to its first part. -/
theorem bind_ok {x : Call σ α} {k : α → Call σ β} {s s' : σ} {b : β}
    (h : (x >>= k).run s = .ok b s') : ∃ a t, x.run s = .ok a t ∧ (k a).run t = .ok b s' := by
  rw [EStateM.run_bind] at h
  cases hx : x.run s with
  | ok a t =>
    rw [hx] at h
    exact ⟨a, t, rfl, h⟩
  | error e t =>
    rw [hx] at h
    cases h

theorem attempt_bind_ok {x : Call σ α} {k : Except Errno α → Call σ β} {s s' : σ} {b : β}
    (h : (attempt x >>= k).run s = .ok b s') :
    (∃ a t, x.run s = .ok a t ∧ (k (.ok a)).run t = .ok b s') ∨
      ∃ e t, x.run s = .error e t ∧ (k (.error e)).run t = .ok b s' := by
  rw [EStateM.run_bind, attempt_run] at h
  cases hx : x.run s with
  | ok a t =>
    rw [hx] at h
    exact Or.inl ⟨a, t, rfl, h⟩
  | error e t =>
    rw [hx] at h
    exact Or.inr ⟨e, t, rfl, h⟩

theorem zoom_run (part : σ → τ) (put : σ → τ → σ) (x : Call τ α) (s : σ) :
    (zoom part put x).run s = match x.run (part s) with
      | .ok a t => .ok a (put s t)
      | .error e t => .error e (put s t) := rfl

end Run

/-- The result is one of `Q`, or an error that leaves a state of `E`. -/
def Leaves {σ α : Type} (Q : α → σ → Prop) (E : σ → Prop) : EStateM.Result Errno σ α → Prop
  | .ok a s => Q a s
  | .error _ s => E s

section Leaves
variable {σ α β : Type} {Q : α → σ → Prop} {R : β → σ → Prop} {E : σ → Prop} {s : σ}

theorem Leaves.bind {x : Call σ α} {f : α → Call σ β} (hx : Leaves Q E (x.run s))
    (hf : ∀ a t, Q a t → Leaves R E ((f a).run t)) : Leaves R E ((x >>= f).run s) := by
  rw [EStateM.run_bind]
  cases hr : x.run s with
  | ok a t =>
    rw [hr] at hx
    exact hf a t hx
  | error e t =>
    rw [hr] at hx
    exact hx

instance Leaves.decidable [∀ a s, Decidable (Q a s)] [DecidablePred E] :
    (r : EStateM.Result Errno σ α) → Decidable (Leaves Q E r)
  | .ok a s => inferInstanceAs (Decidable (Q a s))
  | .error _ s => inferInstanceAs (Decidable (E s))

theorem Leaves.exists_ok {r : EStateM.Result Errno σ α} (h : Leaves Q (fun _ => False) r) :
    ∃ a s, r = .ok a s ∧ Q a s := by
  cases r with
  | ok a s => exact ⟨a, s, rfl, h⟩
  | error e s => exact h.elim

end Leaves

/-- The error number that a run ends with. -/
def failure {σ α : Type} : EStateM.Result Errno σ α → Option Errno
  | .ok _ _ => none
  | .error e _ => some e

theorem exists_error_of_failure {σ α : Type} {r : EStateM.Result Errno σ α} {e : Errno}
    (h : failure r = some e) : ∃ s, r = .error e s := by
  cases r with
  | ok a s => cases h
  | error e' s =>
    cases h
    exact ⟨s, rfl⟩

/-! ### Calls that only look at the object -/

/-- The call leaves the object as it is, also after an error. -/
def Keeps {σ α : Type} (x : Call σ α) : Prop :=
  ∀ s, Leaves (fun _ t => t = s) (fun t => t = s) (x.run s)

section Keeps
variable {σ τ α β : Type}

theorem Keeps.get : Keeps (get : Call σ σ) := fun _ => rfl

theorem Keeps.pure (a : α) : Keeps (pure a : Call σ α) := fun _ => rfl

theorem Keeps.throw (e : Errno) : Keeps (throw e : Call σ α) := fun _ => rfl

theorem Keeps.bind {x : Call σ α} {f : α → Call σ β} (hx : Keeps x) (hf : ∀ a, Keeps (f a)) :
    Keeps (x >>= f) := by
  intro s
  apply (hx s).bind
  intro a t ht
  rw [ht]
  exact hf a s

theorem Keeps.ite {p : Prop} [Decidable p] {x y : Call σ α} (hx : Keeps x) (hy : Keeps y) :
    Keeps (if p then x else y) := by
  by_cases hp : p
  · rwa [if_pos hp]
  · rwa [if_neg hp]

theorem Keeps.zoom {part : σ → τ} {put : σ → τ → σ} (hput : ∀ s, put s (part s) = s)
    {x : Call τ α} (hx : Keeps x) : Keeps (zoom part put x) := by
  intro s
  have hs := hx (part s)
  rw [zoom_run]
  cases hr : x.run (part s) with
  | ok a t =>
    rw [hr] at hs
    obtain rfl : t = part s := hs
    exact hput s
  | error e t =>
    rw [hr] at hs
    obtain rfl : t = part s := hs
    exact hput s

theorem Keeps.cases {x : Call σ α} (hx : Keeps x) (s : σ) :
    (∃ a, x.run s = .ok a s) ∨ ∃ e, x.run s = .error e s := by
  have hs := hx s
  cases hr : x.run s with
  | ok a t =>
    rw [hr] at hs
    obtain rfl : t = s := hs
    exact Or.inl ⟨a, rfl⟩
  | error e t =>
    rw [hr] at hs
    obtain rfl : t = s := hs
    exact Or.inr ⟨e, rfl⟩

end Keeps

/-! ### Calls that keep a part of the object -/

/-- What `view` shows of the object is the same afterwards, also after an error. -/
def Preserves {σ τ α : Type} (view : σ → τ) (x : Call σ α) : Prop :=
  ∀ s, Leaves (fun _ t => view t = view s) (fun t => view t = view s) (x.run s)

section Preserves
variable {σ τ υ α β : Type} {view : σ → υ}

theorem Preserves.of_keeps {x : Call σ α} (hx : Keeps x) : Preserves view x := by
  intro s
  rcases hx.cases s with ⟨a, hrun⟩ | ⟨e, hrun⟩
  · rw [hrun]
    rfl
  · rw [hrun]
    rfl

theorem Preserves.modified {f : σ → σ} (hf : ∀ s, view (f s) = view s) :
    Preserves view (modify f : Call σ Unit) := hf

theorem Preserves.bind {x : Call σ α} {f : α → Call σ β} (hx : Preserves view x)
    (hf : ∀ a, Preserves view (f a)) : Preserves view (x >>= f) := by
  intro s
  apply (hx s).bind
  intro a t ht
  rw [← ht]
  exact hf a t

theorem Preserves.get_bind {f : σ → Call σ β} (hf : ∀ s, Preserves view (f s)) :
    Preserves view (get >>= f) := (of_keeps .get).bind hf

theorem Preserves.modified_bind {f : σ → σ} {k : PUnit → Call σ β}
    (hf : ∀ s, view (f s) = view s) (hk : Preserves view (k ())) :
    Preserves view (modify f >>= k) := (modified hf).bind fun _ => hk

theorem Preserves.ite {p : Prop} [Decidable p] {x y : Call σ α} (hx : Preserves view x)
    (hy : Preserves view y) : Preserves view (if p then x else y) := by
  by_cases hp : p
  · rwa [if_pos hp]
  · rwa [if_neg hp]

theorem Preserves.zoom {υ' : Type} {inner : τ → υ'} {part : σ → τ} {put : σ → τ → σ}
    (hput : ∀ s t, inner t = inner (part s) → view (put s t) = view s) {x : Call τ α}
    (hx : Preserves inner x) : Preserves view (zoom part put x) := by
  intro s
  have hs := hx (part s)
  rw [zoom_run]
  cases hr : x.run (part s) with
  | ok a t =>
    rw [hr] at hs
    exact hput s t hs
  | error e t =>
    rw [hr] at hs
    exact hput s t hs

theorem Preserves.ok {x : Call σ α} (hx : Preserves view x) {s t : σ} {a : α}
    (h : x.run s = .ok a t) : view t = view s := by
  have hs := hx s
  rwa [h] at hs

theorem Preserves.error {x : Call σ α} (hx : Preserves view x) {s t : σ} {e : Errno}
    (h : x.run s = .error e t) : view t = view s := by
  have hs := hx s
  rwa [h] at hs

end Preserves
end FileTransfer
