import FileTransfer.Infra.IdPoolReturn

/-! The memory of an id pool. `id_pool_create` asks for one block that holds the header, the
free ids and the flags, and computes its size with 32-bit words. -/
namespace FileTransfer
open Run

/-- `sizeof(id_pool_t)` on LP64, where `free_ids` begins inside the padding of the header. -/
def sizeofIdPool : UInt32 := 24
def offsetofFreeIds : ℕ := 20
def sizeofUint32 : UInt32 := 4

namespace IdPoolCfg
variable (cfg : IdPoolCfg)

def szFree : UInt32 := cfg.capacity * sizeofUint32
def szInuse : UInt32 := cfg.capacity

/-- The number of bytes that `malloc` is asked for. -/
def total : UInt32 := sizeofIdPool + cfg.szFree + cfg.szInuse

/-- Where `free_ids[i]` and `in_use[i]` are in the block. -/
def freeIdsAt (_ : IdPoolCfg) (i : ℕ) : ℕ := offsetofFreeIds + sizeofUint32.toNat * i
def inUseAt (i : ℕ) : ℕ := sizeofIdPool.toNat + cfg.szFree.toNat + i

end IdPoolCfg

/-- The next call, whichever it is, uses elements of the two arrays only. -/
def IdSession.InArrays (s : IdSession) : Prop :=
  (∀ pool, idPoolAllocate.run s.pool ≠ .error .outOfBounds pool) ∧
    ∀ id pool, (idPoolFree id).run s.pool ≠ .error .outOfBounds pool

/-- The block has room for the header and for both arrays, which do not overlap, and no call
leaves the arrays. -/
structure IdPoolCfg.LaidOut (cfg : IdPoolCfg) : Prop where
  enough : sizeofIdPool.toNat + 4 * cfg.capacity.toNat + cfg.capacity.toNat ≤ cfg.total.toNat
  freeIds_inside : ∀ i < cfg.capacity.toNat,
    cfg.freeIdsAt i + sizeofUint32.toNat ≤ cfg.total.toNat
  inUse_inside : ∀ i < cfg.capacity.toNat, cfg.inUseAt i + 1 ≤ cfg.total.toNat
  apart : ∀ i < cfg.capacity.toNat, ∀ j < cfg.capacity.toNat,
    cfg.freeIdsAt i + sizeofUint32.toNat ≤ cfg.inUseAt j ∨ cfg.inUseAt j + 1 ≤ cfg.freeIdsAt i
  calls : ∀ heap heap' pool s, (idPoolCreate cfg).run heap = .ok pool heap' →
    Reach IdSession.anyCall IdSession.exec (IdSession.start pool) s → s.InArrays

theorem IdPool.Out.free_inArrays {cfg : IdPoolCfg} {pool pool' : IdPool} {S : Set UInt32}
    {id : UInt32} (h : IdPool.Out cfg pool S) :
    (idPoolFree id).run pool ≠ .error .outOfBounds pool' := by
  obtain ⟨stack, hrep, -⟩ := h
  by_cases hin : pool.capacity + pool.idStartOffset ≤ id ∨ id < pool.idStartOffset
  · rw [IdPool.Rep.free_foreign hin]
    simp
  · have hin' := hin
    rw [hrep.capacity, hrep.start] at hin'
    have hwrap : cfg.idStartOffset.toNat + cfg.capacity.toNat < 2 ^ 32 := by
      by_contra hwrap
      exact hin' (IdSession.foreign_of_wrap (not_lt.mp hwrap))
    have hids : id ∈ cfg.ids := (IdPoolCfg.mem_ids_iff hwrap).mpr hin'
    by_cases hs : id ∈ stack
    · rw [hrep.free_alreadyIn hin hids hs]
      simp
    · obtain ⟨after, hrun, -⟩ := hrep.free_given hin hids hs
      rw [hrun]
      simp

theorem IdPool.Out.inArrays {cfg : IdPoolCfg} {s : IdSession}
    (h : IdPool.Out cfg s.pool s.outstanding) : s.InArrays := by
  constructor
  · intro pool
    rcases h.allocate with ⟨hrun, -⟩ | ⟨id, after, hrun, -⟩
    · rw [hrun]
      simp
    · rw [hrun]
      simp
  · intro id pool
    exact h.free_inArrays

/-- The block is large enough exactly if the sum of the three sizes fits in 32 bits. -/
theorem id_pool_laid_out_iff (cfg : IdPoolCfg) :
    cfg.LaidOut ↔ 24 + 5 * cfg.capacity.toNat < 2 ^ 32 := by
  have hword : sizeofUint32.toNat = 4 := rfl
  have hheader : sizeofIdPool.toNat = 24 := rfl
  have hfree : cfg.szFree.toNat = cfg.capacity.toNat * 4 % 2 ^ 32 := UInt32.toNat_mul ..
  have htotal : cfg.total.toNat =
      ((24 + cfg.szFree.toNat) % 2 ^ 32 + cfg.capacity.toNat) % 2 ^ 32 := by
    rw [IdPoolCfg.total, UInt32.toNat_add, UInt32.toNat_add]
    rfl
  constructor
  · intro h
    have henough := h.enough
    have hlt := cfg.total.toNat_lt
    omega
  · intro hfits
    have hfree' : cfg.szFree.toNat = 4 * cfg.capacity.toNat := by omega
    have htotal' : cfg.total.toNat = 24 + 5 * cfg.capacity.toNat := by omega
    constructor
    · omega
    · intro i hi
      rw [IdPoolCfg.freeIdsAt, offsetofFreeIds, hword]
      omega
    · intro i hi
      rw [IdPoolCfg.inUseAt]
      omega
    · intro i hi j hj
      rw [IdPoolCfg.freeIdsAt, IdPoolCfg.inUseAt, offsetofFreeIds, hword]
      omega
    · intro heap heap' pool s hc hr
      exact (IdSession.out_of_reach hc hr).inArrays

/-- For `858993455` ids the sum wraps, and a block of three bytes is asked for. -/
theorem id_pool_block_too_small : ∃ pool heap,
    (idPoolCreate ⟨858993455, 0⟩).run ⟨fun _ => true, 0, []⟩ = .ok pool heap ∧
      (⟨858993455, 0⟩ : IdPoolCfg).total = 3 ∧ ¬ (⟨858993455, 0⟩ : IdPoolCfg).LaidOut := by
  refine ⟨_, _, rfl, by decide, ?_⟩
  intro h
  have henough := h.enough
  revert henough
  decide

end FileTransfer
