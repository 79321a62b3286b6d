import FileTransfer.BuddyAllocator.Session
import FileTransfer.BuddyAllocator.PoolRefinement

/-! Runs of the allocator over its words. A handle is an address. In a pool of at most 27 levels
a run is a run of the slots, handle by handle. -/
namespace FileTransfer.PoolMemory
open Agreement Bisection Run

/-- `live` remembers the level and the offset that a handle had when it was returned. -/
structure AllocSession where
  alloc : BuddyAlloc
  live : ℕ → Option (ℕ × UInt32)
  returned : List ℕ

namespace AllocSession

def start (b : BuddyAlloc) : AllocSession := ⟨b, fun _ => none, []⟩

def allocated (s : AllocSession) (b : BuddyAlloc) (p : ℕ) : AllocSession where
  alloc := b
  live q := if q = p then
      some ((decodeBody (b.memPool.words (p + 16))).2.1, (decodeBody (b.memPool.words (p + 16))).1)
    else s.live q
  returned := p :: s.returned

def freed (s : AllocSession) (b : BuddyAlloc) (p : ℕ) : AllocSession :=
  { s with alloc := b, live := fun q => if q = p then none else s.live q }

def exec (s : AllocSession) : AllocOp → AllocSession
  | .allocate blockSize =>
    match (buddyAllocAllocate blockSize).run s.alloc with
    | .ok p b => s.allocated b p
    | .error _ b => { s with alloc := b }
  | .free p =>
    match (buddyAllocFree p).run s.alloc with
    | .ok _ b => s.freed b p
    | .error _ b => { s with alloc := b }

/-- Only live handles are freed. -/
def onLive (s : AllocSession) : AllocOp → Prop
  | .allocate _ => True
  | .free p => s.live p ≠ none

instance (s : AllocSession) (op : AllocOp) : Decidable (s.onLive op) :=
  match op with
  | .allocate _ => inferInstanceAs (Decidable True)
  | .free _ => inferInstanceAs (Decidable (_ ≠ _))

/-- Any handle that was ever returned may be freed. -/
def onReturned (s : AllocSession) : AllocOp → Prop
  | .allocate _ => True
  | .free p => p ∈ s.returned

instance (s : AllocSession) (op : AllocOp) : Decidable (s.onReturned op) :=
  match op with
  | .allocate _ => inferInstanceAs (Decidable True)
  | .free _ => inferInstanceAs (Decidable (_ ∈ _))

/-- The session as the slots show it. -/
def view (s : AllocSession) : FileTransfer.AllocSession where
  alloc := s.alloc.slots
  live i := if i < s.alloc.memPool.numOfElements.toNat then s.live (s.alloc.memPool.address i)
    else none
  returned := s.returned.filterMap s.alloc.memPool.slotAt

/-- The handles are the addresses of the slots that are the handles of `t`. -/
structure Encodes (A : Layout) (s : AllocSession) (t : FileTransfer.AllocSession) : Prop where
  alloc : PoolMemory.Encodes A s.alloc t.alloc
  live : ∀ i < A.slots.toNat, s.live (A.address i) = t.live i
  live_slot : ∀ p, s.live p ≠ none → ∃ i < A.slots.toNat, p = A.address i
  live_none : ∀ i, A.slots.toNat ≤ i → t.live i = none
  returned : s.returned = t.returned.map A.address
  returned_slot : ∀ i ∈ t.returned, i < A.slots.toNat

/-- Operations on a handle and on its slot. -/
inductive SameOp (A : Layout) : AllocOp → AllocOp → Prop
  | allocate (blockSize : UInt32) : SameOp A (.allocate blockSize) (.allocate blockSize)
  | free {i : ℕ} (hi : i < A.slots.toNat) : SameOp A (.free (A.address i)) (.free i)

namespace Encodes
variable {A : Layout} {s : AllocSession} {t : FileTransfer.AllocSession} {i p : ℕ}
  {b : BuddyAlloc} {c : FileTransfer.BuddyAlloc}

theorem view_eq (h : Encodes A s t) : s.view = t := by
  obtain ⟨alloc, live, returned⟩ := t
  have halloc : s.alloc.slots = alloc := h.alloc.slots_eq
  have hlive : s.view.live = live := by
    funext i
    dsimp only [view]
    rw [h.alloc.sizes.2.1]
    by_cases hi : i < A.slots.toNat
    · rw [if_pos hi, h.alloc.address_eq hi]
      exact h.live i hi
    · rw [if_neg hi]
      exact (h.live_none i (Nat.not_lt.mp hi)).symm
  have hreturned : s.returned.filterMap s.alloc.memPool.slotAt = returned := by
    have hsome : ∀ i ∈ returned, s.alloc.memPool.slotAt (A.address i) = some i :=
      fun i hi => h.alloc.slotAt_eq (.slot (h.returned_slot i hi))
    rw [h.returned, List.filterMap_map]
    exact (List.filterMap_congr hsome).trans List.filterMap_some
  unfold view at hlive ⊢
  dsimp only at hlive
  rw [halloc, hreturned, hlive]

/-- The slots show the live blocks, all of them and no others. -/
theorem exists_live (h : Encodes A s t) (r : ℕ × UInt32) :
    (∃ p, s.live p = some r) ↔ ∃ i, t.live i = some r := by
  constructor
  · rintro ⟨p, hp⟩
    obtain ⟨i, hi, rfl⟩ := h.live_slot p fun hnone => nomatch hnone.symm.trans hp
    exact ⟨i, (h.live i hi).symm.trans hp⟩
  · rintro ⟨i, hi⟩
    by_cases hlt : i < A.slots.toNat
    · exact ⟨A.address i, (h.live i hlt).trans hi⟩
    · rw [h.live_none i (Nat.not_lt.mp hlt)] at hi
      cases hi

theorem allocated (h : Encodes A s t) (henc : PoolMemory.Encodes A b c) (hi : i < A.slots.toNat) :
    Encodes A (s.allocated b (A.address i)) (t.allocated c i) := by
  have hbody := (henc.block i hi).body
  refine ⟨henc, fun j hj => ?_, fun p hp => ?_, fun j hj => ?_,
    congrArg (A.address i :: ·) h.returned, List.forall_mem_cons.mpr ⟨hi, h.returned_slot⟩⟩
  · dsimp only [AllocSession.allocated, FileTransfer.AllocSession.allocated]
    rw [Function.update_apply]
    by_cases hji : j = i
    · subst hji
      rw [if_pos rfl, if_pos rfl, hbody]
      rfl
    · rw [if_neg (fun he => hji (Layout.address_inj he)), if_neg hji]
      exact h.live j hj
  · dsimp only [AllocSession.allocated] at hp
    by_cases hpi : p = A.address i
    · exact ⟨i, hi, hpi⟩
    · rw [if_neg hpi] at hp
      exact h.live_slot p hp
  · dsimp only [FileTransfer.AllocSession.allocated]
    rw [Function.update_of_ne (by omega)]
    exact h.live_none j hj

theorem freed (h : Encodes A s t) (henc : PoolMemory.Encodes A b c) (i : ℕ) :
    Encodes A (s.freed b (A.address i)) (t.freed c i) := by
  refine ⟨henc, fun j hj => ?_, fun p hp => ?_, fun j hj => ?_, h.returned,
    h.returned_slot⟩
  · dsimp only [AllocSession.freed, FileTransfer.AllocSession.freed]
    rw [Function.update_apply]
    by_cases hji : j = i
    · subst hji
      rw [if_pos rfl, if_pos rfl]
    · rw [if_neg (fun he => hji (Layout.address_inj he)), if_neg hji]
      exact h.live j hj
  · dsimp only [AllocSession.freed] at hp
    by_cases hpi : p = A.address i
    · rw [if_pos hpi] at hp
      exact absurd rfl hp
    · rw [if_neg hpi] at hp
      exact h.live_slot p hp
  · dsimp only [FileTransfer.AllocSession.freed]
    rw [Function.update_apply]
    by_cases hji : j = i
    · rw [if_pos hji]
    · rw [if_neg hji]
      exact h.live_none j hj

theorem with_alloc (h : Encodes A s t) (henc : PoolMemory.Encodes A b c) :
    Encodes A { s with alloc := b } { t with alloc := c } :=
  ⟨henc, h.live, h.live_slot, h.live_none, h.returned, h.returned_slot⟩

/-- One operation of a run. -/
theorem exec (h : Encodes A s t) (hlevels : 0 < A.levels) {op op' : AllocOp}
    (hop : SameOp A op op') : Encodes A (s.exec op) (t.exec op') := by
  cases hop with
  | allocate blockSize =>
    have hagree := h.alloc.allocate_agree hlevels blockSize
    unfold AllocSession.exec FileTransfer.AllocSession.exec
    dsimp only
    cases hres : (buddyAllocAllocate blockSize).run s.alloc with
    | ok p b =>
      rw [hres] at hagree
      obtain ⟨i, c, hc, henc, hi, rfl⟩ := hagree.exists_right
      rw [hc]
      exact h.allocated henc hi
    | error e b =>
      rw [hres] at hagree
      obtain ⟨c, hc, henc⟩ := hagree.error_right
      rw [hc]
      exact h.with_alloc henc
  | free hi =>
    have hagree := h.alloc.free_agree hi
    unfold AllocSession.exec FileTransfer.AllocSession.exec
    dsimp only
    cases hres : (buddyAllocFree _).run s.alloc with
    | ok _ b =>
      rw [hres] at hagree
      obtain ⟨_, c, hc, henc, -⟩ := hagree.exists_right
      rw [hc]
      exact h.freed henc _
    | error e b =>
      rw [hres] at hagree
      obtain ⟨c, hc, henc⟩ := hagree.error_right
      rw [hc]
      exact h.with_alloc henc

/-- An operation on a live handle is one on a live slot. -/
theorem exec_onLive (h : Encodes A s t) (hlevels : 0 < A.levels) {op : AllocOp}
    (hop : s.onLive op) : ∃ op', t.onLive op' ∧ Encodes A (s.exec op) (t.exec op') := by
  cases op with
  | allocate blockSize => exact ⟨.allocate blockSize, trivial, h.exec hlevels (.allocate blockSize)⟩
  | free p =>
    obtain ⟨i, hi, rfl⟩ := h.live_slot p hop
    refine ⟨.free i, ?_, h.exec hlevels (.free hi)⟩
    rw [FileTransfer.AllocSession.onLive, ← h.live i hi]
    exact hop

/-- And an operation on a handle ever returned is one on a slot ever returned. -/
theorem exec_onReturned (h : Encodes A s t) (hlevels : 0 < A.levels) {op : AllocOp}
    (hop : s.onReturned op) : ∃ op', t.onReturned op' ∧ Encodes A (s.exec op) (t.exec op') := by
  cases op with
  | allocate blockSize => exact ⟨.allocate blockSize, trivial, h.exec hlevels (.allocate blockSize)⟩
  | free p =>
    rw [AllocSession.onReturned, h.returned] at hop
    obtain ⟨i, hi, rfl⟩ := List.mem_map.mp hop
    exact ⟨.free i, hi, h.exec hlevels (.free (h.returned_slot i hi))⟩

end Encodes
end AllocSession

/-! ### The allocator that is created -/

/-- The allocator before the whole pool is added, made by the requests from number `n` on. -/
def zeroed (S : Shape) (elementsArray : Location) (n : ℕ) : BuddyAlloc where
  addr := n
  minBlockSize := S.minBlock
  numOfLevels := S.levels
  memPool := ⟨n + 1, some (n + 2), elementsArray, fun _ => 0, UInt32.ofNat S.slots,
    sizeofBuddyAllocBlock⟩
  freeList := fun _ => 0

theorem memPoolCreate_run (elementsArray : Location) (cfg : MemPoolCfg) (heap : Heap)
    (hz : ¬ (cfg.numElements = 0 ∨ cfg.elementSize = 0)) :
    (memPoolCreate elementsArray cfg).run heap =
      if heap.grant heap.requests then
        if heap.grant (heap.requests + 1) then
          .ok (.ok (), some ⟨heap.requests, some (heap.requests + 1), elementsArray, fun _ => 0,
              cfg.numElements, cfg.elementSize⟩)
            { heap with
              requests := heap.requests + 2
              events := .alloc (heap.requests + 1) :: .alloc heap.requests :: heap.events }
        else
          .ok (.error .ENOMEM, some ⟨heap.requests, none, elementsArray, fun _ => 0, 0, 0⟩)
            { heap with
              requests := heap.requests + 2
              events := .release heap.requests :: .alloc heap.requests :: heap.events }
      else .ok (.error .ENOMEM, none) { heap with requests := heap.requests + 1 } := by
  unfold memPoolCreate
  rw [if_neg hz]
  cases h1 : heap.grant heap.requests <;>
    cases h2 : heap.grant (heap.requests + 1) <;>
    simp [request_run, release, h1, h2]

theorem buddyAllocCreate_zeroed {elementsArray : Location} {cfg : BuddyAllocCfg}
    {heap heap' : Heap} {b : BuddyAlloc}
    (h : (buddyAllocCreate elementsArray cfg).run heap = .ok b heap') :
    ∃ S : Shape, cfg.totalMemPoolSize = S.total ∧ cfg.minBlockSize = S.minBlock ∧
      (createNewBlock 0 0 S.total >>= linkedListAddBlock).run
        (zeroed S elementsArray heap.requests) = .ok () b := by
  have haccepted : ∃ S : Shape, cfg.totalMemPoolSize = S.total ∧ cfg.minBlockSize = S.minBlock := by
    rw [← Shape.accepted_iff]
    unfold buddyAllocCreate at h
    dsimp only at h
    constructor
    · intro hbad
      rw [if_pos hbad] at h
      cases h
    · intro hlt
      rw [if_pos hlt] at h
      split_ifs at h <;> cases h
  obtain ⟨S, hS, hS'⟩ := haccepted
  refine ⟨S, hS, hS', ?_⟩
  obtain ⟨hsizes, hle⟩ := Shape.accepted_iff.mpr ⟨S, rfl, rfl⟩
  have hmax := S.levels_le_max
  have hnodes := S.pool_not_empty
  unfold buddyAllocCreate at h
  simp only [hS, hS', if_neg hsizes, if_neg hle, S.calcNumOfLevels_eq, if_neg hmax,
    S.calcMaxNodes_eq, EStateM.run_bind, request_run] at h
  cases hg : heap.grant heap.requests with
  | false =>
    rw [hg] at h
    cases h
  | true =>
    simp only [hg, if_true, EStateM.run_bind,
      memPoolCreate_run elementsArray ⟨sizeofBuddyAllocBlock, UInt32.ofNat S.slots⟩ _ hnodes] at h
    cases h1 : heap.grant (heap.requests + 1) with
    | false =>
      simp only [h1] at h
      cases h
    | true =>
      cases h2 : heap.grant (heap.requests + 1 + 1) with
      | false =>
        simp only [h1, h2] at h
        cases h
      | true =>
        simp only [h1, h2, if_true] at h
        rw [EStateM.run_bind]
        split at h
        · rename_i hadd
          cases h
          exact hadd
        · obtain ⟨_, _, -, h⟩ := bind_ok h
          obtain ⟨_, _, -, h⟩ := bind_ok h
          obtain ⟨_, _, -, h⟩ := bind_ok h
          cases h

/-- The layout of a pool of at most 27 levels. -/
def layout (S : Shape) (elementsArray : Location) (hfits : S.top ≤ 26 + S.bottom) : Layout where
  elementsArray := elementsArray
  slots := UInt32.ofNat S.slots
  levels := S.levels
  fits := by
    have hpow : 2 ^ S.levels ≤ 2 ^ 27 := by
      apply Nat.pow_le_pow_right (by omega)
      unfold Shape.levels Shape.depth
      omega
    rw [Word.toNat_ofNat Shape.slots_lt, Shape.slots]
    omega

theorem zeroed_encodes (S : Shape) (elementsArray : Location) (hfits : S.top ≤ 26 + S.bottom)
    (n : ℕ) : Encodes (layout S elementsArray hfits) (zeroed S elementsArray n) (S.zeroed n) := by
  refine ⟨rfl, ⟨rfl, rfl, rfl, rfl⟩, fun i _ =>
    ⟨rfl, rfl, decodeBody_zero, Nat.succ_pos _⟩, fun _ _ => rfl,
    fun _ _ => rfl, fun _ _ => rfl⟩

/-- In a pool of at most 27 levels the words of a new allocator hold a new allocator. -/
theorem buddyAllocCreate_encodes {elementsArray : Location} {cfg : BuddyAllocCfg}
    {heap heap' : Heap} {b : BuddyAlloc}
    (hc : (buddyAllocCreate elementsArray cfg).run heap = .ok b heap')
    (hfits : cfg.totalMemPoolSize.toNat ≤ 2 ^ 26 * cfg.minBlockSize.toNat) :
    ∃ S : Shape, cfg.totalMemPoolSize = S.total ∧ cfg.minBlockSize = S.minBlock ∧
      ∃ A : Layout, 0 < A.levels ∧ Encodes A b b.slots ∧ Made S b.slots := by
  obtain ⟨S, ht, hm, hadd⟩ := buddyAllocCreate_zeroed hc
  have hle : S.top ≤ 26 + S.bottom := by
    rwa [ht, hm, Shape.toNat_total, Shape.toNat_minBlock, ← pow_add,
      Nat.pow_le_pow_iff_right (by omega)] at hfits
  have hagree := (zeroed_encodes S elementsArray hle heap.requests).addBlock_agree (Nat.succ_pos _)
    0 S.total
  rw [hadd] at hagree
  obtain ⟨_, c, hc', henc, -⟩ := hagree.exists_right
  rw [henc.slots_eq]
  exact ⟨S, ht, hm, _, Nat.succ_pos _, henc, _, S.zeroed_zeroed _, hc'⟩

namespace AllocSession
variable {elementsArray : Location} {cfg : BuddyAllocCfg} {heap heap' : Heap} {b : BuddyAlloc}
  {s : AllocSession}

theorem start_encodes {A : Layout} {c : FileTransfer.BuddyAlloc} (h : PoolMemory.Encodes A b c) :
    Encodes A (start b) (FileTransfer.AllocSession.start c) :=
  ⟨h, fun _ _ => rfl, fun _ hp => absurd rfl hp, fun _ _ => rfl, rfl, fun _ hi => nomatch hi⟩

/-- Every live handle is the address of a slot, so that the view shows all of them. -/
def LiveInSlots (s : AllocSession) : Prop :=
  ∀ p, s.live p ≠ none → ∃ i < s.alloc.memPool.numOfElements.toNat, p = s.alloc.memPool.address i

theorem Encodes.liveInSlots {A : Layout} {t : FileTransfer.AllocSession} (h : Encodes A s t) :
    s.LiveInSlots := by
  intro p hp
  obtain ⟨i, hi, rfl⟩ := h.live_slot p hp
  rw [h.alloc.sizes.2.1]
  exact ⟨i, hi, (h.alloc.address_eq hi).symm⟩

/-- A run of a pool of at most 27 levels, in which live handles are freed, is a run of its slots. -/
theorem view_of_reach (hc : (buddyAllocCreate elementsArray cfg).run heap = .ok b heap')
    (hfits : cfg.totalMemPoolSize.toNat ≤ 2 ^ 26 * cfg.minBlockSize.toNat)
    (hr : Reach onLive exec (start b) s) :
    ∃ S : Shape, cfg.totalMemPoolSize = S.total ∧ cfg.minBlockSize = S.minBlock ∧
      (∃ A : Layout, 0 < A.levels ∧ Encodes A s s.view) ∧
      ∃ a, FileTransfer.AllocSession.Shows S s.view a := by
  obtain ⟨S, ht, hm, A, hlevels, henc, hmade⟩ := buddyAllocCreate_encodes hc hfits
  obtain ⟨t, hr', ht'⟩ := hr.simulates (fun s t op h hop => h.exec_onLive hlevels hop)
    (start_encodes henc)
  rw [ht'.view_eq]
  exact ⟨S, ht, hm, ⟨A, hlevels, ht'⟩, FileTransfer.AllocSession.shows_of_made hmade hr'⟩

/-- The same for a run in which any handle ever returned may be freed. -/
theorem view_of_reach_returned (hc : (buddyAllocCreate elementsArray cfg).run heap = .ok b heap')
    (hfits : cfg.totalMemPoolSize.toNat ≤ 2 ^ 26 * cfg.minBlockSize.toNat)
    (hr : Reach onReturned exec (start b) s) :
    (∃ A : Layout, Encodes A s s.view) ∧ ∃ S c, Made S c ∧
      Reach FileTransfer.AllocSession.onReturned FileTransfer.AllocSession.exec
        (FileTransfer.AllocSession.start c) s.view := by
  obtain ⟨S, -, -, A, hlevels, henc, hmade⟩ := buddyAllocCreate_encodes hc hfits
  obtain ⟨t, hr', ht'⟩ := hr.simulates (fun s t op h hop => h.exec_onReturned hlevels hop)
    (start_encodes henc)
  rw [ht'.view_eq]
  exact ⟨⟨A, ht'⟩, S, _, hmade, hr'⟩

/-! ### Runs on fixed requests -/

/-- A run that is evaluated together with the creation of its object. -/
theorem exists_run {σ τ α : Type} {ok : τ → α → Prop} {exec : τ → α → τ} {start : σ → τ}
    {P : τ → Prop} (ops : List α) {r : EStateM.Result Errno Heap σ}
    (h : Leaves (fun b _ => Allowed ok exec (start b) ops ∧ P (ops.foldl exec (start b)))
      (fun _ => False) r) :
    ∃ b heap s, r = .ok b heap ∧ Reach ok exec (start b) s ∧ P s := by
  obtain ⟨b, heap, hc, hall, hP⟩ := h.exists_ok
  exact ⟨b, heap, _, hc, Reach.start.foldl ops hall, hP⟩

/-- A place for an array. -/
def page : Location := ⟨4096, by decide, by decide⟩

/-- In a pool of two smallest blocks both are handed out, a third request is refused, both come
back and are merged, and one is handed out again. -/
def halves : List AllocOp :=
  [.allocate 512, .allocate 300, .allocate 512, .free 4120, .free 4144, .allocate 400]

/-- Requests for every second power of two below a pool of `2 ^ 27` bytes. -/
def everySecond : List AllocOp :=
  [33554432, 8388608, 2097152, 524288, 131072, 32768, 8192, 2048, 512, 128, 32, 8].map .allocate

end AllocSession

end FileTransfer.PoolMemory
