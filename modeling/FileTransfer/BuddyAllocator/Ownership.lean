import FileTransfer.Infra.Ownership
import FileTransfer.BuddyAllocator.Create

/-! Which objects an allocator owns, and when its creation and its destruction account for them. -/
namespace FileTransfer
open Heap

def MemPool.owned (pool : MemPool) : Multiset ℕ :=
  match pool.elementsAddr with
  | none => {pool.addr}
  | some elements => {elements, pool.addr}

def BuddyAlloc.owned (b : BuddyAlloc) : Multiset ℕ := b.memPool.owned + {b.addr}

theorem MemPool.owned_of_placement {b c : BuddyAlloc} (h : c.placement = b.placement) :
    c.memPool.owned = b.memPool.owned := by
  have hpool : c.memPool.addr = b.memPool.addr := congrArg (·.2.1) h
  have helements : c.memPool.elementsAddr = b.memPool.elementsAddr := congrArg (·.2.2.1) h
  rw [owned, owned, hpool, helements]

theorem BuddyAlloc.owned_of_placement {b c : BuddyAlloc} (h : c.placement = b.placement) :
    c.owned = b.owned := by
  have haddr : c.addr = b.addr := congrArg (·.1) h
  rw [owned, owned, MemPool.owned_of_placement h, haddr]

section Calls
variable {heap : Heap} {E : Option (Multiset ℕ)}

theorem memPoolDestroy_accounts (pool : MemPool) (F : Multiset ℕ) :
    Accounts heap (pool.owned + F) (memPoolDestroy pool) (fun _ => F) E := by
  have haddr : pool.addr ∈ pool.owned + F := by
    unfold MemPool.owned
    cases pool.elementsAddr <;> simp
  unfold memPoolDestroy
  apply Accounts.access_bind haddr
  intro heap'
  unfold MemPool.owned
  cases pool.elementsAddr with
  | none =>
    rw [Multiset.singleton_add]
    exact .release
  | some elements =>
    dsimp only
    rw [Multiset.insert_eq_cons, Multiset.cons_add, Multiset.singleton_add]
    apply Accounts.release_bind
    intro heap''
    exact .release

theorem buddyAllocDestroy_accounts (b : BuddyAlloc) (F : Multiset ℕ) :
    Accounts heap (b.owned + F) (buddyAllocDestroy b) (fun _ => F) E := by
  unfold buddyAllocDestroy BuddyAlloc.owned
  apply Accounts.access_bind
  · simp
  · intro heap'
    rw [Multiset.add_assoc]
    apply (memPoolDestroy_accounts b.memPool _).bind
    intro _ heap'' _
    exact .release

/-- Whatever pointer a failed call leaves behind, it owns nothing more. -/
theorem memPoolCreate_accounts (cfg : MemPoolCfg) (F : Multiset ℕ) :
    Accounts heap F (memPoolCreate cfg)
      (fun r => match r with
        | (.ok _, some pool) => pool.owned + F
        | _ => F) E := by
  unfold memPoolCreate
  by_cases hz : cfg.numElements = 0 ∨ cfg.elementSize = 0
  · rw [if_pos hz]
    exact .pure rfl
  · rw [if_neg hz]
    apply Accounts.request_bind
    · intro _
      apply Accounts.request_bind
      · intro _
        apply Accounts.pure
        dsimp only [MemPool.owned]
        rw [Multiset.insert_eq_cons, Multiset.cons_add, Multiset.singleton_add]
      · apply Accounts.release_bind
        intro heap'
        exact .pure rfl
    · exact .pure rfl

/-- The configurations that pass the tests of `buddy_alloc_create`. -/
def BuddyAllocCfg.Accepted (cfg : BuddyAllocCfg) : Prop :=
  ¬ (cfg.minBlockSize = 0 ∨ cfg.totalMemPoolSize = 0 ∨
    cfg.totalMemPoolSize &&& (cfg.totalMemPoolSize - 1) ≠ 0 ∨
    cfg.minBlockSize &&& (cfg.minBlockSize - 1) ≠ 0) ∧
  ¬ cfg.totalMemPoolSize < cfg.minBlockSize

/-- The allocator and its pool are granted, and the slots of the pool are not. -/
def BuddyAllocCfg.SlotsRefused (cfg : BuddyAllocCfg) (heap : Heap) : Prop :=
  cfg.Accepted ∧ heap.grant heap.requests = true ∧ heap.grant (heap.requests + 1) = true ∧
    heap.grant (heap.requests + 2) = false

/-- A pointer is left behind only if the slots are refused. -/
theorem memPoolCreate_cases {cfg : MemPoolCfg} {heap heap' : Heap}
    {r : Except Errno Unit × Option MemPool} (h : (memPoolCreate cfg).run heap = .ok r heap') :
    (∃ pool, r = (.ok (), some pool)) ∨ (∃ e, r = (.error e, none)) ∨
      ∃ e pool, r = (.error e, some pool) ∧ heap.grant heap.requests = true ∧
        heap.grant (heap.requests + 1) = false := by
  by_cases hz : cfg.numElements = 0 ∨ cfg.elementSize = 0
  · unfold memPoolCreate at h
    rw [if_pos hz] at h
    cases h
    exact Or.inr (Or.inl ⟨_, rfl⟩)
  · rw [memPoolCreate_run cfg heap hz] at h
    cases hg : heap.grant heap.requests with
    | false =>
      rw [hg] at h
      cases h
      exact Or.inr (Or.inl ⟨_, rfl⟩)
    | true =>
      cases hg' : heap.grant (heap.requests + 1) with
      | false =>
        rw [hg, hg'] at h
        cases h
        exact Or.inr (Or.inr ⟨_, _, rfl, rfl, rfl⟩)
      | true =>
        rw [hg, hg'] at h
        cases h
        exact Or.inl ⟨_, rfl⟩

/-- The last part of the creation, after the requests. -/
theorem addWholePool_accounts (total : UInt32) (b : BuddyAlloc) (F : Multiset ℕ) :
    Accounts heap (b.memPool.owned + b.addr ::ₘ F)
      (match (createNewBlock 0 0 total >>= linkedListAddBlock).run b with
        | .ok _ c => return c
        | .error e c => do
          access b.addr
          memPoolDestroy c.memPool
          release b.addr
          throw e)
      (fun c => c.owned + F) (some F) := by
  have hplace := addWholePool_placement total b
  cases hadd : (createNewBlock 0 0 total >>= linkedListAddBlock).run b with
  | ok u c =>
    rw [hadd] at hplace
    apply Accounts.pure
    rw [BuddyAlloc.owned_of_placement hplace, BuddyAlloc.owned, Multiset.add_assoc,
      Multiset.singleton_add]
  | error e c =>
    rw [hadd] at hplace
    rw [← MemPool.owned_of_placement hplace]
    apply Accounts.access_bind
    · simp
    · intro heap₁
      apply (memPoolDestroy_accounts c.memPool _).bind
      intro _ heap₂ _
      apply Accounts.release_bind
      intro heap₃
      exact .throw e

/-- The creation accounts for everything, unless it fails for want of the slots alone. -/
theorem buddyAllocCreate_accounts (cfg : BuddyAllocCfg) (F : Multiset ℕ)
    (hok : ¬ cfg.SlotsRefused heap) :
    Accounts heap F (buddyAllocCreate cfg) (fun b => b.owned + F) (some F) := by
  unfold buddyAllocCreate
  dsimp only
  by_cases hsizes : cfg.minBlockSize = 0 ∨ cfg.totalMemPoolSize = 0 ∨
    cfg.totalMemPoolSize &&& (cfg.totalMemPoolSize - 1) ≠ 0 ∨
    cfg.minBlockSize &&& (cfg.minBlockSize - 1) ≠ 0
  · rw [if_pos hsizes]
    exact .throw .EINVAL
  rw [if_neg hsizes]
  by_cases hlt : cfg.totalMemPoolSize < cfg.minBlockSize
  · rw [if_pos hlt]
    exact .throw .EINVAL
  rw [if_neg hlt]
  cases calcNumOfLevels cfg.totalMemPoolSize cfg.minBlockSize with
  | error e => exact .throw e
  | ok numOfLevels =>
    dsimp only
    by_cases hmax : MAX_LEVELS < numOfLevels
    · rw [if_pos hmax]
      exact .throw .EINVAL
    rw [if_neg hmax]
    cases calcMaxNodes numOfLevels with
    | error e => exact .throw e
    | ok maxNodes =>
      dsimp only
      apply Accounts.request_bind
      · intro hg
        apply (memPoolCreate_accounts _ _).bind
        intro r heap₁ hrun
        rcases memPoolCreate_cases hrun with ⟨pool, rfl⟩ | ⟨e, rfl⟩ | ⟨e, pool, -, hpool, hslots⟩
        · exact addWholePool_accounts cfg.totalMemPoolSize
            ⟨heap.requests, cfg.minBlockSize, numOfLevels, pool, fun _ => none⟩ F
        · apply Accounts.access_bind (Multiset.mem_cons_self _ _)
          intro heap₂
          apply Accounts.release_bind
          intro heap₃
          exact .throw e
        · exact absurd ⟨⟨hsizes, hlt⟩, hg, hpool, hslots⟩ hok
      · exact .throw .ENOMEM

/-- The pool, which `mem_pool_create` has released already, is read and released again. -/
theorem buddyAllocCreate_slotsRefused {cfg : BuddyAllocCfg} (h : cfg.SlotsRefused heap) :
    (buddyAllocCreate cfg).run heap = .error .ENOMEM
      { heap with
        requests := heap.requests + 3
        events := .release heap.requests :: .release (heap.requests + 1) ::
          .access (heap.requests + 1) :: .access heap.requests :: .release (heap.requests + 1) ::
          .alloc (heap.requests + 1) :: .alloc heap.requests :: heap.events } := by
  obtain ⟨⟨hsizes, hle⟩, hg, hpool, hslots⟩ := h
  obtain ⟨S, ht, hm⟩ := Shape.accepted_iff.mp ⟨hsizes, hle⟩
  have hmax := S.levels_le_max
  have hnodes := S.pool_not_empty
  rw [ht, hm] at hsizes hle
  unfold buddyAllocCreate
  simp only [ht, hm, if_neg hsizes, if_neg hle, S.calcNumOfLevels_eq, if_neg hmax,
    S.calcMaxNodes_eq, EStateM.run_bind, request_run, if_pos hg,
    memPoolCreate_run ⟨sizeofBuddyAllocBlock, UInt32.ofNat S.slots⟩ _ hnodes, if_pos hpool,
    Nat.add_assoc, hslots]
  rfl

end Calls
end FileTransfer
