import FileTransfer.Foundation.Ledger
import FileTransfer.Infra.Heap

/-! What the calls on the heap own. A call accounts for the objects that it is given: it says
which ones are owned afterwards, whatever else is owned besides. -/
namespace FileTransfer
open Lifetime

namespace HeapEvent

def allocates : HeapEvent → Option ℕ
  | alloc p => some p
  | _ => none

/-- Every allocation was released exactly once, and not accessed or released after that. -/
def Settled (events : List HeapEvent) : Prop :=
  Lifetime.Settled allocates accesses releases events

end HeapEvent

namespace Heap

/-- The objects that were handed out and not released are those of `owned`. -/
structure Owns (heap : Heap) (owned : Multiset ℕ) : Prop where
  ledger : Owned HeapEvent.allocates HeapEvent.accesses HeapEvent.releases heap.events owned
  fresh : ∀ p ∈ made HeapEvent.allocates heap.events, p < heap.requests

/-- After a request that is served, and after one that is not. -/
def granted (heap : Heap) : Heap :=
  { heap with requests := heap.requests + 1, events := .alloc heap.requests :: heap.events }

def refused (heap : Heap) : Heap := { heap with requests := heap.requests + 1 }

theorem request_bind_run {β : Type} (k : Option ℕ → HeapCall β) (heap : Heap) :
    (request >>= k).run heap = if heap.grant heap.requests = true then
      (k (some heap.requests)).run heap.granted
    else (k none).run heap.refused := by
  rw [EStateM.run_bind, request_run]
  by_cases hg : heap.grant heap.requests = true
  · rw [if_pos hg, if_pos hg]
    rfl
  · rw [if_neg hg, if_neg hg]
    rfl

section Owns
variable {heap : Heap} {owned : Multiset ℕ} {p : ℕ}

theorem Owns.start (grant : ℕ → Bool) (n : ℕ) : Owns ⟨grant, n, []⟩ 0 :=
  ⟨.nil, fun _ hp => nomatch hp⟩

theorem Owns.granted (h : Owns heap owned) : Owns heap.granted (heap.requests ::ₘ owned) := by
  have hnew : heap.requests ∉ made HeapEvent.allocates heap.events := fun hp =>
    lt_irrefl _ (h.fresh _ hp)
  constructor
  · exact h.ledger.make rfl rfl rfl hnew
  · intro p hp
    rcases List.mem_cons.mp hp with rfl | hp
    · exact Nat.lt_succ_self _
    · exact (h.fresh p hp).trans (Nat.lt_succ_self _)

theorem Owns.refused (h : Owns heap owned) : Owns heap.refused owned :=
  ⟨h.ledger, fun p hp => (h.fresh p hp).trans (Nat.lt_succ_self _)⟩

theorem Owns.accessed (h : Owns heap owned) (hp : p ∈ owned) :
    Owns { heap with events := .access p :: heap.events } owned :=
  ⟨h.ledger.use hp rfl rfl rfl, h.fresh⟩

theorem Owns.released (h : Owns heap (p ::ₘ owned)) :
    Owns { heap with events := .release p :: heap.events } owned :=
  ⟨h.ledger.free rfl rfl rfl, h.fresh⟩

theorem Owns.settled (h : Owns heap 0) : HeapEvent.Settled heap.events := h.ledger.settled

theorem Owns.settled_iff (h : Owns heap owned) : HeapEvent.Settled heap.events ↔ owned = 0 :=
  h.ledger.settled_iff

/-- A fresh object is none of those that are owned. -/
theorem Owns.notMem (h : Owns heap (p ::ₘ owned)) : p ∉ owned :=
  (Multiset.nodup_cons.mp h.ledger.nodup_owned).1

end Owns

/-! ### Calls that account for what they are given -/

/-- Started while the objects of `P` are owned, the call ends with `Q` owned, or fails with `E`
owned. No `E` means that it does not fail. -/
def Accounts {α : Type} (heap : Heap) (P : Multiset ℕ) (x : HeapCall α) (Q : α → Multiset ℕ)
    (E : Option (Multiset ℕ)) : Prop :=
  Owns heap P → Leaves (fun a h => Owns h (Q a)) (fun h => ∃ A ∈ E, Owns h A) (x.run heap)

namespace Accounts
variable {α β : Type} {heap : Heap} {P A : Multiset ℕ} {Q : α → Multiset ℕ}
  {R : β → Multiset ℕ} {E : Option (Multiset ℕ)} {p : ℕ}

theorem pure {a : α} (ha : P = Q a) : Accounts heap P (pure a) Q E := by
  intro h
  rw [ha] at h
  exact h

theorem throw (e : Errno) : Accounts heap P (throw e : HeapCall α) Q (some P) :=
  fun h => ⟨P, rfl, h⟩

theorem bind {x : HeapCall α} {f : α → HeapCall β} (hx : Accounts heap P x Q E)
    (hf : ∀ a heap', x.run heap = .ok a heap' → Accounts heap' (Q a) (f a) R E) :
    Accounts heap P (x >>= f) R E := by
  intro h
  have hleaves := hx h
  rw [EStateM.run_bind]
  cases hrun : x.run heap with
  | ok a heap' =>
    rw [hrun] at hleaves
    exact hf a heap' hrun hleaves
  | error e heap' =>
    rw [hrun] at hleaves
    exact hleaves

theorem request_bind {k : Option ℕ → HeapCall β}
    (hsome : heap.grant heap.requests = true →
      Accounts heap.granted (heap.requests ::ₘ P) (k (some heap.requests)) R E)
    (hnone : Accounts heap.refused P (k none) R E) : Accounts heap P (request >>= k) R E := by
  intro h
  rw [EStateM.run_bind, request_run]
  by_cases hg : heap.grant heap.requests = true
  · rw [if_pos hg]
    exact hsome hg h.granted
  · rw [if_neg hg]
    exact hnone h.refused

theorem access_bind {k : Unit → HeapCall β} (hp : p ∈ P)
    (hk : ∀ heap', Accounts heap' P (k ()) R E) : Accounts heap P (access p >>= k) R E :=
  fun h => hk _ (h.accessed hp)

theorem release_bind {k : Unit → HeapCall β} (hk : ∀ heap', Accounts heap' P (k ()) R E) :
    Accounts heap (p ::ₘ P) (release p >>= k) R E :=
  fun h => hk _ h.released

theorem release : Accounts heap (p ::ₘ P) (release p) (fun _ => P) E :=
  fun h => h.released

/-- Looking at the return code. -/
theorem attempt {x : HeapCall α} (hx : Accounts heap P x Q (some A)) :
    Accounts heap P (attempt x)
      (fun r => match r with
        | .ok a => Q a
        | .error _ => A) E := by
  intro h
  have hleaves := hx h
  rw [attempt_run]
  cases hrun : x.run heap with
  | ok a heap' =>
    rw [hrun] at hleaves
    exact hleaves
  | error e heap' =>
    rw [hrun] at hleaves
    obtain ⟨B, hB, howns⟩ := hleaves
    cases hB
    exact howns

/-- The rounds of a loop; `I` says what is owned before the rounds that are left. -/
theorem forM {ι : Type} {g : ι → HeapCall Unit} {I : List ι → Multiset ℕ}
    (hstep : ∀ i l heap, Accounts heap (I (i :: l)) (g i) (fun _ => I l) E) (l : List ι)
    (heap : Heap) : Accounts heap (I l) (l.forM g) (fun _ => I []) E := by
  induction l generalizing heap with
  | nil => exact .pure rfl
  | cons i l ih =>
    change Accounts heap (I (i :: l)) (g i >>= fun _ => l.forM g) _ E
    apply (hstep i l heap).bind
    intro _ heap' _
    exact ih heap'

theorem forM_access (l : List ℕ) (hl : ∀ p ∈ l, p ∈ P) :
    Accounts heap P (l.forM FileTransfer.access) (fun _ => P) E := by
  induction l generalizing heap with
  | nil => exact .pure rfl
  | cons p l ih =>
    apply access_bind (hl p List.mem_cons_self)
    intro heap'
    exact ih fun q hq => hl q (List.mem_cons_of_mem p hq)

/-- The two ways in which a call on an empty heap ends. -/
theorem cases_of_start {x : HeapCall α} {grant : ℕ → Bool} {n : ℕ}
    (hx : Accounts ⟨grant, n, []⟩ 0 x Q E) :
    (∃ a h, x.run ⟨grant, n, []⟩ = .ok a h ∧ Owns h (Q a)) ∨
      ∃ e h, x.run ⟨grant, n, []⟩ = .error e h ∧ ∃ A ∈ E, Owns h A := by
  have hleaves := hx (.start grant n)
  cases hrun : x.run ⟨grant, n, []⟩ with
  | ok a h =>
    rw [hrun] at hleaves
    exact Or.inl ⟨a, h, rfl, hleaves⟩
  | error e h =>
    rw [hrun] at hleaves
    exact Or.inr ⟨e, h, rfl, hleaves⟩

end Accounts

/-! ### Creation and destruction -/

/-- Every object is released once, and none is read or released after that: before the creation
returns when it fails, and otherwise by the destruction that follows it, which succeeds. -/
def ReleasesAll {α : Type} (create : HeapCall α) (destroy : α → HeapCall Unit) (heap : Heap) :
    Prop :=
  Leaves
    (fun a heap₁ => Leaves (fun _ heap₂ => HeapEvent.Settled heap₂.events) (fun _ => False)
      ((destroy a).run heap₁))
    (fun heap₁ => HeapEvent.Settled heap₁.events) (create.run heap)

/-- The destruction releases what the creation hands over. -/
theorem Accounts.releasesAll {α : Type} {create : HeapCall α} {destroy : α → HeapCall Unit}
    {grant : ℕ → Bool} {n : ℕ} {Q : α → Multiset ℕ}
    (hcreate : Accounts ⟨grant, n, []⟩ 0 create Q (some 0))
    (hdestroy : ∀ a heap₁, create.run ⟨grant, n, []⟩ = .ok a heap₁ →
      Accounts heap₁ (Q a) (destroy a) (fun _ => 0) none) :
    ReleasesAll create destroy ⟨grant, n, []⟩ := by
  unfold ReleasesAll
  rcases hcreate.cases_of_start with ⟨a, heap₁, hrun, howns⟩ | ⟨e, heap₁, hrun, A, hA, howns⟩
  · rw [hrun]
    have hleaves := hdestroy a heap₁ hrun howns
    change Leaves _ _ ((destroy a).run heap₁)
    cases hend : (destroy a).run heap₁ with
    | ok u heap₂ =>
      rw [hend] at hleaves
      exact hleaves.settled
    | error e heap₂ =>
      rw [hend] at hleaves
      obtain ⟨A, hA, -⟩ := hleaves
      cases hA
  · rw [hrun]
    cases hA
    exact howns.settled

end Heap
end FileTransfer
