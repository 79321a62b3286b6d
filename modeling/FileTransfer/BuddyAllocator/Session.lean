import FileTransfer.Foundation.Run
import FileTransfer.BuddyAllocator.Create

/-! Runs of an allocator: requests and releases in any order, with the handles that are out
and the handles that were ever returned. -/
namespace FileTransfer
open Bisection Run

inductive AllocOp
  | allocate (blockSize : UInt32)
  | free (block : ℕ)
deriving DecidableEq, Repr

/-- `live` remembers the level and the offset that a handle had when it was returned. -/
structure AllocSession where
  alloc : BuddyAlloc
  live : ℕ → Option (ℕ × UInt32)
  returned : List ℕ

namespace AllocSession

def start (b : BuddyAlloc) : AllocSession := ⟨b, fun _ => none, []⟩

def allocated (s : AllocSession) (b : BuddyAlloc) (p : ℕ) : AllocSession where
  alloc := b
  live := Function.update s.live p
    (some (buddyAllocGetBlockLevel b p, buddyAllocGetBlockOffset b p))
  returned := p :: s.returned

def freed (s : AllocSession) (b : BuddyAlloc) (p : ℕ) : AllocSession :=
  { s with alloc := b, live := Function.update s.live p none }

def exec (s : AllocSession) : AllocOp → AllocSession
  | .allocate blockSize =>
    match (buddyAllocAllocate blockSize).run s.alloc with
    | .ok p b => s.allocated b p
    | .error _ b => { s with alloc := b }
  | .free p =>
    match (buddyAllocFree p).run s.alloc with
    | .ok _ b => s.freed b p
    | .error _ b => { s with alloc := b }

/-- Only live handles are freed. -/
def onLive (s : AllocSession) : AllocOp → Prop
  | .allocate _ => True
  | .free p => s.live p ≠ none

instance (s : AllocSession) (op : AllocOp) : Decidable (s.onLive op) :=
  match op with
  | .allocate _ => inferInstanceAs (Decidable True)
  | .free _ => inferInstanceAs (Decidable (_ ≠ _))

/-- Any handle that was ever returned may be freed. -/
def onReturned (s : AllocSession) : AllocOp → Prop
  | .allocate _ => True
  | .free p => p ∈ s.returned

/-- The session shows a pool whose used nodes are the live handles. -/
structure Shows (S : Shape) (s : AllocSession) (a : Pool) : Prop where
  inv : a.Inv S.depth ∅
  alloc : FileTransfer.Shows S s.alloc a
  live : ∀ p r, s.live p = some r ↔
    ∃ n ∈ a.used, slotOf n = p ∧ (n.level, UInt32.ofNat (S.offset n)) = r

section Steps
variable {S : Shape} {s : AllocSession} {a : Pool} {b : BuddyAlloc} {n : Node}

theorem Shows.live_used (h : Shows S s a) (hn : n ∈ a.used) :
    s.live (slotOf n) = some (n.level, UInt32.ofNat (S.offset n)) :=
  (h.live _ _).mpr ⟨n, hn, rfl, rfl⟩

theorem Shows.exists_used (h : Shows S s a) {p : ℕ} (hp : s.live p ≠ none) :
    ∃ n ∈ a.used, slotOf n = p := by
  obtain ⟨r, hr⟩ := Option.ne_none_iff_exists'.mp hp
  obtain ⟨n, hn, hs, -⟩ := (h.live p r).mp hr
  exact ⟨n, hn, hs⟩

theorem Shows.slotOf_ne (h : Shows S s a) {m : Node} (hm : m ∈ a.used) (hn : S.Has n)
    (hne : m ≠ n) : slotOf m ≠ slotOf n := fun he =>
  hne (slotOf_inj (Inv_has h.inv (Or.inr hm)).1 hn.1 he)

/-- A node is handed out. -/
theorem Shows.allocated (h : Shows S s a) {a' : Pool} (hi : a'.Inv S.depth ∅)
    (hb : FileTransfer.Shows S b a') (hu : a'.used = insert n a.used) :
    Shows S (s.allocated b (slotOf n)) a' := by
  have hn : n ∈ a'.used := by
    rw [hu]
    exact Set.mem_insert n _
  have hbody := hb.used n hn
  simp only [BuddyAllocBlock.body, Prod.mk.injEq] at hbody
  refine ⟨hi, hb, fun p r => ?_⟩
  simp only [AllocSession.allocated, buddyAllocGetBlockLevel, buddyAllocGetBlockOffset, hbody,
    Function.update_apply]
  by_cases hp : p = slotOf n
  · subst hp
    rw [if_pos rfl, Option.some_inj]
    constructor
    · intro hr
      exact ⟨n, hn, rfl, hr⟩
    · rintro ⟨m, hm, hs, hr⟩
      rwa [slotOf_inj (Inv_has hi (Or.inr hm)).1 (Inv_has hi (Or.inr hn)).1 hs] at hr
  · rw [if_neg hp, h.live, hu]
    refine exists_congr fun m => and_congr_left fun hm => ?_
    rw [Set.mem_insert_iff, or_iff_right]
    rintro rfl
    exact hp hm.1.symm

/-- A used node is given back. -/
theorem Shows.freed (h : Shows S s a) {a' : Pool} (hi : a'.Inv S.depth ∅)
    (hb : FileTransfer.Shows S b a') (hn : n ∈ a.used) (hu : a'.used = a.used \ {n}) :
    Shows S (s.freed b (slotOf n)) a' := by
  refine ⟨hi, hb, fun p r => ?_⟩
  simp only [AllocSession.freed, Function.update_apply]
  by_cases hp : p = slotOf n
  · subst hp
    rw [if_pos rfl, hu]
    constructor
    · intro hr
      cases hr
    · rintro ⟨m, hm, hs, -⟩
      exact absurd hs (h.slotOf_ne hm.1 (Inv_has h.inv (Or.inr hn)) hm.2)
  · rw [if_neg hp, h.live, hu]
    refine exists_congr fun m => and_congr_left fun hm => ?_
    rw [Set.mem_sdiff, Set.mem_singleton_iff, iff_self_and]
    rintro - rfl
    exact hp hm.1.symm

/-- What one admissible operation does: nothing, or it hands a new node out, or it gives
a used node back. -/
theorem Shows.exec_cases (h : Shows S s a) {op : AllocOp} (hop : onLive s op) :
    ∃ a', Shows S (s.exec op) a' ∧
      (a' = a ∧ s.exec op = s ∨
        (∃ blockSize n, op = .allocate blockSize ∧ n ∉ a.used ∧ a'.used = insert n a.used) ∨
        ∃ n ∈ a.used, op = .free (slotOf n) ∧ a'.used = a.used \ {n}) := by
  cases op with
  | allocate blockSize =>
    rcases h.alloc.allocate_cases h.inv blockSize with
      ⟨e, hrun⟩ | ⟨n, b, a', hrun, hshow, hinv, hnew, hused⟩
    · have hexec : s.exec (.allocate blockSize) = s := by
        simp only [exec, hrun]
      rw [hexec]
      exact ⟨a, h, Or.inl ⟨rfl, rfl⟩⟩
    · simp only [exec, hrun]
      exact ⟨a', h.allocated hinv hshow hused, Or.inr (Or.inl ⟨blockSize, n, rfl, hnew, hused⟩)⟩
  | free p =>
    obtain ⟨n, hn, rfl⟩ := h.exists_used hop
    obtain ⟨b, hb, hshow⟩ := h.alloc.free_run h.inv hn
    obtain ⟨hinv, hused⟩ := h.inv.release hn
    simp only [exec, hb]
    exact ⟨_, h.freed hinv hshow hn hused, Or.inr (Or.inr ⟨n, hn, rfl, hused⟩)⟩

/-- An operation other than the release of a handle leaves the handle's node used. -/
theorem Shows.exec_used (h : Shows S s a) {op : AllocOp} (hop : onLive s op) :
    ∃ a', Shows S (s.exec op) a' ∧ ∀ n ∈ a.used, op ≠ .free (slotOf n) → n ∈ a'.used := by
  obtain ⟨a', hshow, ⟨rfl, -⟩ | ⟨-, n, -, -, hu⟩ | ⟨n, -, rfl, hu⟩⟩ := h.exec_cases hop
  · exact ⟨a', hshow, fun m hm _ => hm⟩
  · refine ⟨a', hshow, fun m hm _ => ?_⟩
    rw [hu]
    exact Set.mem_insert_of_mem n hm
  · refine ⟨a', hshow, fun m hm hne => ?_⟩
    rw [hu]
    refine ⟨hm, ?_⟩
    rintro rfl
    exact hne rfl

end Steps

/-- Every state of a run on live handles shows a pool. -/
theorem shows_of_made {S : Shape} {b : BuddyAlloc} {s : AllocSession} (hmade : Made S b)
    (hr : Reach onLive exec (start b) s) : ∃ a, Shows S s a := by
  apply hr.invariant (fun s => ∃ a, Shows S s a)
  · refine ⟨Pool.initial, Pool.Inv.initial S.depth, hmade.shows, fun p r => ?_⟩
    simp [start, Pool.initial, Pool.empty]
  · rintro s op ⟨a, ha⟩ hop
    obtain ⟨a', ha', -⟩ := ha.exec_cases hop
    exact ⟨a', ha'⟩

theorem shows_of_reach {cfg : BuddyAllocCfg} {heap heap' : Heap} {b : BuddyAlloc}
    {s : AllocSession} (hc : (buddyAllocCreate cfg).run heap = .ok b heap')
    (hr : Reach onLive exec (start b) s) :
    ∃ S : Shape, cfg.totalMemPoolSize = S.total ∧ cfg.minBlockSize = S.minBlock ∧
      ∃ a, Shows S s a := by
  obtain ⟨S, ht, hm, hmade⟩ := buddyAllocCreate_ok hc
  exact ⟨S, ht, hm, shows_of_made hmade hr⟩

/-- In a pool of two smallest blocks both are handed out, a third request is refused, both come
back and are merged, and one is handed out again. -/
def halves : List AllocOp :=
  [.allocate 512, .allocate 300, .allocate 512, .free 1, .free 2, .allocate 400]

end AllocSession
end FileTransfer
