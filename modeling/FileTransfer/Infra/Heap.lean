import FileTransfer.Foundation.Lifetime
import FileTransfer.Infra.Errno

/-! The C heap as far as ownership goes: which requests are served, and the order in which
the objects it handed out are read and released. An open file is such an object too. -/
namespace FileTransfer

inductive HeapEvent
  | alloc (p : ℕ)
  | access (p : ℕ)
  | release (p : ℕ)
deriving DecidableEq, Repr

namespace HeapEvent

def accesses : HeapEvent → Option ℕ
  | access p => some p
  | _ => none

def releases : HeapEvent → Option ℕ
  | release p => some p
  | _ => none

/-- No object is accessed or released after its release. -/
def Clean (events : List HeapEvent) : Prop := Lifetime.Clean accesses releases events

/-- The objects that were released, once for each time. -/
def released (events : List HeapEvent) : List ℕ := Lifetime.freed releases events

variable {events : List HeapEvent} {p q : ℕ}

theorem clean_nil : Clean [] := trivial

theorem clean_alloc : Clean (alloc p :: events) ↔ Clean events := Lifetime.clean_cons_none rfl rfl

theorem clean_access : Clean (access p :: events) ↔ p ∉ released events ∧ Clean events :=
  Lifetime.clean_cons_uses rfl rfl

theorem clean_release : Clean (release p :: events) ↔ p ∉ released events ∧ Clean events :=
  Lifetime.clean_cons_frees rfl rfl

end HeapEvent

/-- `grant n` says whether request number `n` is served; the events stand newest first. -/
structure Heap where
  grant : ℕ → Bool
  requests : ℕ
  events : List HeapEvent

abbrev HeapCall (α : Type) := Call Heap α

/-- `malloc`, `calloc`, `strdup` and `fopen`: a fresh object or NULL. -/
def request : HeapCall (Option ℕ) := do
  let h ← get
  if h.grant h.requests then
    set { h with requests := h.requests + 1, events := .alloc h.requests :: h.events }
    return some h.requests
  else
    set { h with requests := h.requests + 1 }
    return none

/-- Reading or writing through a pointer to the object `p`. -/
def access (p : ℕ) : HeapCall Unit := modify fun h => { h with events := .access p :: h.events }

/-- `free` and `fclose`. -/
def release (p : ℕ) : HeapCall Unit := modify fun h => { h with events := .release p :: h.events }

theorem request_run (h : Heap) :
    request.run h = if h.grant h.requests then
      .ok (some h.requests)
        { h with requests := h.requests + 1, events := .alloc h.requests :: h.events }
    else .ok none { h with requests := h.requests + 1 } := by
  simp only [request, EStateM.run_bind, EStateM.run_get]
  split <;> rfl

/-- A call that starts with a request fails or goes on with the object. -/
theorem request_bind_ok {α : Type} {k : Option ℕ → HeapCall α} {h h' : Heap} {a : α}
    (hrun : (request >>= k).run h = .ok a h') :
    (∃ p h₁, (k (some p)).run h₁ = .ok a h') ∨ ∃ h₁, (k none).run h₁ = .ok a h' := by
  rw [EStateM.run_bind, request_run] at hrun
  cases hg : h.grant h.requests with
  | false =>
    rw [hg] at hrun
    exact Or.inr ⟨_, hrun⟩
  | true =>
    rw [hg] at hrun
    exact Or.inl ⟨_, _, hrun⟩

end FileTransfer
