import FileTransfer.Foundation.Lifo
import FileTransfer.Foundation.Run
import FileTransfer.Foundation.Word
import FileTransfer.Infra.IdPool

/-! The id pool is a last-in first-out pool of its ids. -/
namespace FileTransfer
open Run

namespace IdPoolCfg
variable (cfg : IdPoolCfg) {k j : ℕ} {id : UInt32}

def idAt (k : ℕ) : UInt32 := cfg.idStartOffset + UInt32.ofNat k

/-- The ids of the pool, in the order in which a new pool hands them out. -/
def ids : List UInt32 := (List.range cfg.capacity.toNat).map cfg.idAt

theorem idAt_sub (hk : k < cfg.capacity.toNat) : (cfg.idAt k - cfg.idStartOffset).toNat = k := by
  rw [idAt, UInt32.add_comm, UInt32.add_sub_cancel, Word.toNat_ofNat (hk.trans cfg.capacity.toNat_lt)]

theorem idAt_inj (hk : k < cfg.capacity.toNat) (hj : j < cfg.capacity.toNat)
    (h : cfg.idAt k = cfg.idAt j) : k = j := by
  rw [← cfg.idAt_sub hk, h, cfg.idAt_sub hj]

variable {cfg}

theorem mem_ids : id ∈ cfg.ids ↔ ∃ k < cfg.capacity.toNat, cfg.idAt k = id := by
  simp [ids]

theorem nodup_ids : cfg.ids.Nodup := by
  apply List.nodup_range.map_on
  intro k hk j hj h
  exact cfg.idAt_inj (List.mem_range.mp hk) (List.mem_range.mp hj) h

theorem length_ids : cfg.ids.length = cfg.capacity.toNat := by
  simp [ids]

/-- Without wrapping, the range test of `id_pool_free` singles out the ids of the pool. -/
theorem mem_ids_iff (h : cfg.idStartOffset.toNat + cfg.capacity.toNat < 2 ^ 32) :
    id ∈ cfg.ids ↔ ¬ (cfg.capacity + cfg.idStartOffset ≤ id ∨ id < cfg.idStartOffset) := by
  have hsum : (cfg.capacity + cfg.idStartOffset).toNat =
      cfg.capacity.toNat + cfg.idStartOffset.toNat := by
    rw [UInt32.toNat_add, Nat.mod_eq_of_lt (by omega)]
  have hid : ∀ k < cfg.capacity.toNat, (cfg.idAt k).toNat = cfg.idStartOffset.toNat + k := by
    intro k hk
    have hlt := hk.trans cfg.capacity.toNat_lt
    rw [idAt, UInt32.toNat_add, Word.toNat_ofNat hlt, Nat.mod_eq_of_lt (by omega)]
  rw [mem_ids, UInt32.le_iff_toNat_le, UInt32.lt_iff_toNat_lt, hsum]
  constructor
  · rintro ⟨k, hk, rfl⟩
    rw [hid k hk]
    omega
  · intro hin
    have hk : id.toNat - cfg.idStartOffset.toNat < cfg.capacity.toNat := by omega
    refine ⟨_, hk, UInt32.toNat_inj.mp ?_⟩
    rw [hid _ hk]
    omega

theorem mem_ids_zero {capacity : UInt32} : id ∈ (⟨capacity, 0⟩ : IdPoolCfg).ids ↔ id < capacity := by
  have hwrap : (0 : UInt32).toNat + capacity.toNat < 2 ^ 32 := by
    rw [UInt32.toNat_zero, Nat.zero_add]
    exact capacity.toNat_lt
  rw [mem_ids_iff hwrap, UInt32.add_zero, UInt32.le_iff_toNat_le, UInt32.lt_iff_toNat_lt,
    UInt32.lt_iff_toNat_lt, UInt32.toNat_zero]
  dsimp only
  omega

end IdPoolCfg

/-- The pool holds the free ids `stack`, the top one first. -/
structure IdPool.Rep (cfg : IdPoolCfg) (pool : IdPool) (stack : List UInt32) : Prop where
  capacity : pool.capacity = cfg.capacity
  start : pool.idStartOffset = cfg.idStartOffset
  stack_eq : stack = ((List.range pool.top.toNat).map pool.freeIds).reverse
  inUse : ∀ k < cfg.capacity.toNat, pool.inUse k = true ↔ cfg.idAt k ∉ stack
  valid : Lifo.Valid cfg.ids stack

namespace IdPool.Rep
variable {cfg : IdPoolCfg} {pool : IdPool} {stack : List UInt32} {id : UInt32}

theorem top_eq (h : Rep cfg pool stack) : pool.top.toNat = stack.length := by
  rw [h.stack_eq]
  simp

theorem length_le (h : Rep cfg pool stack) : stack.length ≤ cfg.capacity.toNat := by
  have := h.valid.length_out IdPoolCfg.nodup_ids
  rw [IdPoolCfg.length_ids] at this
  omega

/-- The slot of an id, and the test of its bound in `id_pool_allocate` and `id_pool_free`. -/
theorem index (h : Rep cfg pool stack) {k : ℕ} (hk : k < cfg.capacity.toNat)
    (hkid : cfg.idAt k = id) :
    (id - pool.idStartOffset).toNat = k ∧ ¬ pool.capacity ≤ id - pool.idStartOffset := by
  have hidx : (id - pool.idStartOffset).toNat = k := by
    rw [h.start, ← hkid, cfg.idAt_sub hk]
  refine ⟨hidx, ?_⟩
  rw [UInt32.le_iff_toNat_le, hidx, h.capacity]
  omega

/-- The initial contents of `free_ids`. -/
theorem freeIds_eq {i : ℕ} (hi : i < cfg.capacity.toNat) :
    cfg.idStartOffset + (cfg.capacity - 1 - UInt32.ofNat i) =
      cfg.idAt (cfg.capacity.toNat - 1 - i) := by
  have hlt := cfg.capacity.toNat_lt
  have hcap : cfg.capacity = UInt32.ofNat cfg.capacity.toNat := UInt32.ofNat_toNat.symm
  have hone : cfg.capacity - 1 = UInt32.ofNat (cfg.capacity.toNat - 1) := by
    rw [hcap, show (1 : UInt32) = UInt32.ofNat 1 from rfl, Word.ofNat_sub hlt (by omega),
      Word.toNat_ofNat hlt]
  rw [IdPoolCfg.idAt, hone, Word.ofNat_sub (by omega) (by omega)]

theorem create {addr : ℕ} : Rep cfg
    { addr, inUse := fun _ => false, capacity := cfg.capacity, top := cfg.capacity,
      idStartOffset := cfg.idStartOffset
      freeIds := fun i => cfg.idStartOffset + (cfg.capacity - 1 - UInt32.ofNat i) }
    cfg.ids where
  capacity := rfl
  start := rfl
  stack_eq := by
    apply List.ext_getElem
    · simp [IdPoolCfg.ids]
    · intro i hi hi'
      rw [IdPoolCfg.length_ids] at hi
      have hlt := cfg.capacity.toNat_lt
      have hback : cfg.capacity.toNat - 1 - (cfg.capacity.toNat - 1 - i) = i := by omega
      simp only [IdPoolCfg.ids, List.getElem_map, List.getElem_range, List.getElem_reverse,
        List.length_map, List.length_range]
      rw [freeIds_eq (by omega), hback]
  inUse := by
    intro k hk
    simpa using IdPoolCfg.mem_ids.mpr ⟨k, hk, rfl⟩
  valid := .full IdPoolCfg.nodup_ids

theorem allocate_nil (h : Rep cfg pool []) : idPoolAllocate.run pool = .error .ENOENT pool := by
  have htop : pool.top = 0 := UInt32.toNat_inj.mp h.top_eq
  simp only [idPoolAllocate, EStateM.run_bind, EStateM.run_get, htop, if_true, run_throw]

/-- The top id is handed out and marked. -/
theorem allocate_cons (h : Rep cfg pool (id :: stack)) :
    ∃ pool', idPoolAllocate.run pool = .ok id pool' ∧ Rep cfg pool' stack := by
  have htop := h.top_eq
  have hle := h.length_le
  rw [List.length_cons] at htop hle
  have hne : pool.top ≠ 0 := by
    intro h0
    rw [h0] at htop
    cases htop
  have hpred : (pool.top - 1).toNat = stack.length := by
    rw [UInt32.toNat_sub_of_le _ _ (by rw [UInt32.le_iff_toNat_le, htop]; exact Nat.le_add_left 1 _),
      htop]
    rfl
  have hbound : ¬ pool.capacity ≤ pool.top - 1 := by
    rw [UInt32.le_iff_toNat_le, hpred, h.capacity]
    omega
  have hstack := h.stack_eq
  rw [htop, List.range_succ, List.map_append, List.reverse_append, List.map_singleton,
    List.reverse_singleton, List.singleton_append, List.cons.injEq] at hstack
  obtain ⟨hid, hrest⟩ := hstack
  obtain ⟨k, hk, hkid⟩ := IdPoolCfg.mem_ids.mp (h.valid.subset (List.mem_cons_self ..))
  obtain ⟨hidx, hidx'⟩ := h.index hk hkid
  refine ⟨{ pool with top := pool.top - 1, inUse := Function.update pool.inUse k true }, ?_, ?_⟩
  · simp only [idPoolAllocate, EStateM.run_bind, EStateM.run_get, if_neg hne, if_neg hbound, hpred,
      ← hid, if_neg hidx', hidx]
    rfl
  · refine ⟨h.capacity, h.start, ?_, ?_, h.valid.tail⟩
    · rw [hpred]
      exact hrest
    · intro j hj
      have hold := h.inUse j hj
      rw [List.mem_cons, not_or] at hold
      dsimp only
      rw [Function.update_apply]
      by_cases hjk : j = k
      · subst hjk
        rw [if_pos rfl, hkid]
        exact iff_of_true rfl (List.nodup_cons.mp h.valid.nodup).1
      · rw [if_neg hjk, hold]
        refine and_iff_right fun he => hjk ?_
        exact cfg.idAt_inj hj hk (he.trans hkid.symm)

theorem free_foreign (hout : pool.capacity + pool.idStartOffset ≤ id ∨ id < pool.idStartOffset) :
    (idPoolFree id).run pool = .error .ESPIPE pool := by
  simp only [idPoolFree, EStateM.run_bind, EStateM.run_get, if_pos hout, run_throw]

section Free
variable (h : Rep cfg pool stack)
  (hin : ¬ (pool.capacity + pool.idStartOffset ≤ id ∨ id < pool.idStartOffset))
  (hid : id ∈ cfg.ids)

include h hin hid in
theorem free_alreadyIn (hs : id ∈ stack) : (idPoolFree id).run pool = .error .EALREADY pool := by
  obtain ⟨k, hk, hkid⟩ := IdPoolCfg.mem_ids.mp hid
  obtain ⟨hidx, hbound⟩ := h.index hk hkid
  have hflag : pool.inUse k = false := by
    rw [← Bool.not_eq_true, h.inUse k hk, hkid]
    exact not_not.mpr hs
  simp only [idPoolFree, EStateM.run_bind, EStateM.run_get, if_neg hin, if_neg hbound, hidx, hflag]
  rfl

include h hin hid in
/-- An id that is out is pushed and its mark is cleared. -/
theorem free_given (hs : id ∉ stack) :
    ∃ pool', (idPoolFree id).run pool = .ok () pool' ∧ Rep cfg pool' (id :: stack) := by
  obtain ⟨k, hk, hkid⟩ := IdPoolCfg.mem_ids.mp hid
  have hvalid := h.valid.cons hid hs
  have hlt : stack.length < cfg.capacity.toNat := by
    have := hvalid.length_out IdPoolCfg.nodup_ids
    rw [IdPoolCfg.length_ids, List.length_cons] at this
    omega
  obtain ⟨hidx, hbound⟩ := h.index hk hkid
  have hbound' : ¬ pool.capacity ≤ pool.top := by
    rw [UInt32.le_iff_toNat_le, h.top_eq, h.capacity]
    omega
  have hflag : pool.inUse k = true := by
    rwa [h.inUse k hk, hkid]
  have htop : (pool.top + 1).toNat = stack.length + 1 := by
    have := cfg.capacity.toNat_lt
    rw [UInt32.toNat_add, h.top_eq, UInt32.toNat_one]
    exact Nat.mod_eq_of_lt (by omega)
  refine ⟨{ pool with
    inUse := Function.update pool.inUse k false
    top := pool.top + 1
    freeIds := Function.update pool.freeIds stack.length id }, ?_, ?_⟩
  · simp only [idPoolFree, EStateM.run_bind, EStateM.run_get, if_neg hin, if_neg hbound, hidx, hflag,
      if_neg hbound', ← h.top_eq]
    rfl
  · refine ⟨h.capacity, h.start, ?_, ?_, hvalid⟩
    · have hsame : (List.range stack.length).map (Function.update pool.freeIds stack.length id) =
          (List.range stack.length).map pool.freeIds := by
        apply List.map_congr_left
        intro i hi
        exact Function.update_of_ne (List.mem_range.mp hi).ne ..
      have hstack := h.stack_eq
      rw [h.top_eq] at hstack
      dsimp only
      rw [htop, List.range_succ, List.map_append, List.reverse_append, List.map_singleton,
        List.reverse_singleton, List.singleton_append, hsame, ← hstack, Function.update_self]
    · intro j hj
      dsimp only
      rw [Function.update_apply, List.mem_cons, not_or]
      by_cases hjk : j = k
      · subst hjk
        rw [if_pos rfl, hkid]
        simp
      · rw [if_neg hjk, h.inUse j hj]
        refine (and_iff_right fun he => hjk ?_).symm
        exact cfg.idAt_inj hj hk (he.trans hkid.symm)

end Free

/-- The count is the number of ids that are out, as long as it fits an `int`. -/
theorem getUsedIdCount_eq (h : Rep cfg pool stack) (hcap : cfg.capacity.toNat < 2 ^ 31) :
    idPoolGetUsedIdCount pool = .ok (UInt32.ofNat (Lifo.out cfg.ids stack).length) := by
  have hlen := h.valid.length_out IdPoolCfg.nodup_ids
  rw [IdPoolCfg.length_ids] at hlen
  have hcount : pool.capacity - pool.top = UInt32.ofNat (Lifo.out cfg.ids stack).length := by
    apply Word.eq_ofNat
    have htop := h.top_eq
    rw [UInt32.toNat_sub_of_le, h.capacity, htop]
    · omega
    · rw [UInt32.le_iff_toNat_le, h.capacity, htop]
      omega
  have hneg : ¬ (UInt32.ofNat (Lifo.out cfg.ids stack).length).toInt32 < 0 := by
    rw [Word.toInt32_neg_iff, Word.toNat_ofNat (by omega)]
    omega
  rw [idPoolGetUsedIdCount, hcount]
  exact if_neg hneg

end IdPool.Rep

/-! ### The set of the ids that are out -/

/-- The ids handed out and not given back are those of `S`. -/
def IdPool.Out (cfg : IdPoolCfg) (pool : IdPool) (S : Set UInt32) : Prop :=
  ∃ stack, IdPool.Rep cfg pool stack ∧ ∀ id, id ∈ S ↔ id ∈ Lifo.out cfg.ids stack

namespace IdPool.Out
variable {cfg : IdPoolCfg} {pool : IdPool} {S : Set UInt32} {id : UInt32}

theorem of_new (h : IdPool.Rep cfg pool cfg.ids) : Out cfg pool ∅ := by
  refine ⟨cfg.ids, h, fun id => ?_⟩
  rw [Lifo.mem_out]
  exact iff_of_false (Set.notMem_empty id) fun hout => hout.2 hout.1

theorem mem_ids (h : Out cfg pool S) (hid : id ∈ S) : id ∈ cfg.ids := by
  obtain ⟨stack, -, hS⟩ := h
  exact (Lifo.mem_out.mp ((hS id).mp hid)).1

theorem inUse (h : Out cfg pool S) (hid : id ∈ S) :
    pool.inUse (id - cfg.idStartOffset).toNat = true := by
  obtain ⟨k, hk, hkid⟩ := IdPoolCfg.mem_ids.mp (h.mem_ids hid)
  obtain ⟨stack, hrep, hS⟩ := h
  rw [← hkid, cfg.idAt_sub hk, hrep.inUse k hk, hkid]
  exact (Lifo.mem_out.mp ((hS id).mp hid)).2

/-- An id that was in is handed out, unless all of them are out. -/
theorem allocate (h : Out cfg pool S) :
    (idPoolAllocate.run pool = .error .ENOENT pool ∧ ∀ id ∈ cfg.ids, id ∈ S) ∨
      ∃ id pool', idPoolAllocate.run pool = .ok id pool' ∧ id ∈ cfg.ids ∧ id ∉ S ∧
        Out cfg pool' (insert id S) := by
  obtain ⟨stack, hrep, hS⟩ := h
  cases stack with
  | nil =>
    refine Or.inl ⟨hrep.allocate_nil, fun id hid => ?_⟩
    rw [hS, Lifo.mem_out]
    exact ⟨hid, List.not_mem_nil⟩
  | cons id stack =>
    obtain ⟨pool', hrun, hrep'⟩ := hrep.allocate_cons
    have hids : id ∈ cfg.ids := hrep.valid.subset (List.mem_cons_self ..)
    have hnotin := (List.nodup_cons.mp hrep.valid.nodup).1
    refine Or.inr ⟨id, pool', hrun, hids, ?_, stack, hrep', fun j => ?_⟩
    · rw [hS, Lifo.mem_out]
      exact fun hout => hout.2 (List.mem_cons_self ..)
    · rw [Set.mem_insert_iff, hS, Lifo.mem_out, Lifo.mem_out, List.mem_cons, not_or]
      by_cases hj : j = id
      · rw [hj]
        exact iff_of_true (Or.inl rfl) ⟨hids, hnotin⟩
      · simp [hj]

theorem free (h : Out cfg pool S) (hid : id ∈ S)
    (hwrap : cfg.idStartOffset.toNat + cfg.capacity.toNat < 2 ^ 32) :
    ∃ pool', (idPoolFree id).run pool = .ok () pool' ∧ Out cfg pool' (S \ {id}) := by
  obtain ⟨stack, hrep, hS⟩ := h
  obtain ⟨hids, hs⟩ := Lifo.mem_out.mp ((hS id).mp hid)
  have hin := (IdPoolCfg.mem_ids_iff hwrap).mp hids
  rw [← hrep.capacity, ← hrep.start] at hin
  obtain ⟨pool', hrun, hrep'⟩ := hrep.free_given hin hids hs
  refine ⟨pool', hrun, id :: stack, hrep', fun j => ?_⟩
  rw [Set.mem_sdiff, Set.mem_singleton_iff, hS, Lifo.mem_out, Lifo.mem_out, List.mem_cons, not_or,
    and_assoc, and_comm (a := j ∉ stack)]

theorem free_of_notMem (h : Out cfg pool S) (hid : id ∉ S)
    (hwrap : cfg.idStartOffset.toNat + cfg.capacity.toNat < 2 ^ 32) :
    ∃ e, (idPoolFree id).run pool = .error e pool := by
  obtain ⟨stack, hrep, hS⟩ := h
  have hin : id ∈ cfg.ids ↔ _ := IdPoolCfg.mem_ids_iff hwrap
  rw [← hrep.capacity, ← hrep.start] at hin
  by_cases hids : id ∈ cfg.ids
  · have hs : id ∈ stack := by
      by_contra hs
      exact hid ((hS id).mpr (Lifo.mem_out.mpr ⟨hids, hs⟩))
    exact ⟨_, hrep.free_alreadyIn (hin.mp hids) hids hs⟩
  · exact ⟨_, IdPool.Rep.free_foreign (not_not.mp (hin.not.mp hids))⟩

/-- A count of zero means that no id is out, whatever the capacity. -/
theorem eq_empty (h : Out cfg pool S) (hcount : idPoolGetUsedIdCount pool = .ok 0) : S = ∅ := by
  obtain ⟨stack, hrep, hS⟩ := h
  have hlen := hrep.valid.length_out IdPoolCfg.nodup_ids
  have hle := hrep.length_le
  have hsub : (pool.capacity - pool.top).toNat = cfg.capacity.toNat - stack.length := by
    rw [UInt32.toNat_sub_of_le, hrep.capacity, hrep.top_eq]
    rw [UInt32.le_iff_toNat_le, hrep.capacity, hrep.top_eq]
    exact hle
  have hzero : pool.capacity - pool.top = 0 := by
    unfold idPoolGetUsedIdCount at hcount
    dsimp only at hcount
    split_ifs at hcount
    exact Except.ok.inj hcount
  rw [hzero, UInt32.toNat_zero] at hsub
  rw [IdPoolCfg.length_ids] at hlen
  have hnil : Lifo.out cfg.ids stack = [] := List.eq_nil_of_length_eq_zero (by omega)
  rw [Set.eq_empty_iff_forall_notMem]
  intro id hid
  rw [hS, hnil] at hid
  cases hid

end IdPool.Out

/-! ### Runs -/

inductive IdPoolOp
  | allocate
  | free (id : UInt32)
deriving DecidableEq, Repr

/-- The return code, with the id that `id_pool_allocate` hands out. -/
def IdPool.step (pool : IdPool) : IdPoolOp → Except Errno (Option UInt32) × IdPool
  | .allocate =>
    match idPoolAllocate.run pool with
    | .ok id pool => (.ok (some id), pool)
    | .error e pool => (.error e, pool)
  | .free id =>
    match (idPoolFree id).run pool with
    | .ok _ pool => (.ok none, pool)
    | .error e pool => (.error e, pool)

/-- The return codes of the answers of a last-in first-out pool. -/
def answerCode : Lifo.Answer UInt32 → Except Errno (Option UInt32)
  | .taken id => .ok (some id)
  | .given => .ok none
  | .exhausted => .error .ENOENT
  | .alreadyIn => .error .EALREADY
  | .foreign => .error .ESPIPE

def IdPoolOp.toLifo : IdPoolOp → Lifo.Op UInt32
  | .allocate => .take
  | .free id => .give id

/-- The abstract machine, whose state is the stack of the free ids. -/
def lifoStep (ids stack : List UInt32) (op : IdPoolOp) :
    Except Errno (Option UInt32) × List UInt32 :=
  let r := Lifo.step ids stack op.toLifo
  (answerCode r.1, r.2)

theorem lifoStep_free (ids stack : List UInt32) (id : UInt32) : lifoStep ids stack (.free id) =
    (answerCode (Lifo.give ids stack id).1, (Lifo.give ids stack id).2) := rfl

section Runs
variable {cfg : IdPoolCfg} {pool : IdPool} {stack : List UInt32}
  (hwrap : cfg.idStartOffset.toNat + cfg.capacity.toNat < 2 ^ 32)

include hwrap in
/-- One call answers as the abstract machine does, and fails without a change. -/
theorem IdPool.Rep.step (h : IdPool.Rep cfg pool stack) (op : IdPoolOp) :
    (pool.step op).1 = (lifoStep cfg.ids stack op).1 ∧
      IdPool.Rep cfg (pool.step op).2 (lifoStep cfg.ids stack op).2 ∧
      ∀ e, (pool.step op).1 = .error e → (pool.step op).2 = pool := by
  cases op with
  | allocate =>
    cases stack with
    | nil =>
      have hstep : pool.step .allocate = (.error .ENOENT, pool) := by
        simp only [IdPool.step, h.allocate_nil]
      rw [hstep]
      exact ⟨rfl, h, fun _ _ => rfl⟩
    | cons id stack =>
      obtain ⟨pool', hrun, hrep⟩ := h.allocate_cons
      have hstep : pool.step .allocate = (.ok (some id), pool') := by
        simp only [IdPool.step, hrun]
      rw [hstep]
      exact ⟨rfl, hrep, fun _ he => nomatch he⟩
  | free id =>
    have hin : id ∈ cfg.ids ↔ _ := IdPoolCfg.mem_ids_iff hwrap
    rw [← h.capacity, ← h.start] at hin
    rw [lifoStep_free]
    by_cases hid : id ∈ cfg.ids
    · by_cases hs : id ∈ stack
      · have hstep : pool.step (.free id) = (.error .EALREADY, pool) := by
          simp only [IdPool.step, h.free_alreadyIn (hin.mp hid) hid hs]
        rw [hstep, Lifo.give_alreadyIn hid hs]
        exact ⟨rfl, h, fun _ _ => rfl⟩
      · obtain ⟨pool', hrun, hrep⟩ := h.free_given (hin.mp hid) hid hs
        have hstep : pool.step (.free id) = (.ok none, pool') := by
          simp only [IdPool.step, hrun]
        rw [hstep, Lifo.give_given hid hs]
        exact ⟨rfl, hrep, fun _ he => nomatch he⟩
    · have hstep : pool.step (.free id) = (.error .ESPIPE, pool) := by
        simp only [IdPool.step, IdPool.Rep.free_foreign (not_not.mp (hin.not.mp hid))]
      rw [hstep, Lifo.give_foreign hid]
      exact ⟨rfl, h, fun _ _ => rfl⟩

end Runs

theorem idPoolCreate_ok {cfg : IdPoolCfg} {heap heap' : Heap} {pool : IdPool}
    (h : (idPoolCreate cfg).run heap = .ok pool heap') : IdPool.Rep cfg pool cfg.ids := by
  unfold idPoolCreate at h
  by_cases hz : cfg.capacity = 0
  · rw [if_pos hz] at h
    cases h
  · rw [if_neg hz] at h
    rcases request_bind_ok h with ⟨addr, s, h⟩ | ⟨s, h⟩
    · cases h
      exact .create
    · cases h

/-- What the calls answer while the free ids are `stack`, in terms of the ids that are out. -/
structure IdPool.Answers (cfg : IdPoolCfg) (pool : IdPool) (stack : List UInt32) : Prop where
  distinct : stack.Nodup ∧ ∀ id ∈ stack, id ∈ cfg.ids
  allocate : (pool.step .allocate).1 =
    match stack with
    | [] => .error .ENOENT
    | id :: _ => .ok (some id)
  exhausted : stack = [] ↔ ∀ id ∈ cfg.ids, id ∈ Lifo.out cfg.ids stack
  free : ∀ id, (pool.step (.free id)).1 =
    if id ∈ Lifo.out cfg.ids stack then .ok none
    else if cfg.idStartOffset.toNat ≤ id.toNat ∧
      id.toNat < cfg.idStartOffset.toNat + cfg.capacity.toNat then .error .EALREADY
    else .error .ESPIPE
  failed : ∀ op e, (pool.step op).1 = .error e → e ≠ .outOfBounds ∧ (pool.step op).2 = pool
  count : idPoolGetUsedIdCount pool = .ok (UInt32.ofNat (Lifo.out cfg.ids stack).length)

section Runs
variable {cfg : IdPoolCfg} {pool : IdPool} {stack : List UInt32}
  (hwrap : cfg.idStartOffset.toNat + cfg.capacity.toNat < 2 ^ 32)

include hwrap in
theorem IdPoolCfg.mem_ids_iff_range (id : UInt32) : id ∈ cfg.ids ↔
    cfg.idStartOffset.toNat ≤ id.toNat ∧
      id.toNat < cfg.idStartOffset.toNat + cfg.capacity.toNat := by
  rw [IdPoolCfg.mem_ids_iff hwrap, UInt32.le_iff_toNat_le, UInt32.lt_iff_toNat_lt,
    UInt32.toNat_add, Nat.mod_eq_of_lt (by omega)]
  omega

include hwrap in
theorem IdPool.Rep.answers (h : IdPool.Rep cfg pool stack) (hcap : cfg.capacity.toNat < 2 ^ 31) :
    IdPool.Answers cfg pool stack := by
  have hcode : ∀ a : Lifo.Answer UInt32, answerCode a ≠ .error .outOfBounds := by
    intro a ha
    cases a <;> cases ha
  refine ⟨⟨h.valid.nodup, fun id hid => h.valid.subset hid⟩, ?_, ?_, fun id => ?_, ?_,
    h.getUsedIdCount_eq hcap⟩
  · rw [(h.step hwrap .allocate).1]
    cases stack <;> rfl
  · constructor
    · intro hs id hid
      rw [Lifo.mem_out, hs]
      exact ⟨hid, List.not_mem_nil⟩
    · intro hall
      rw [List.eq_nil_iff_forall_not_mem]
      intro id hid
      exact (Lifo.mem_out.mp (hall id (h.valid.subset hid))).2 hid
  · have hrange := IdPoolCfg.mem_ids_iff_range hwrap id
    rw [(h.step hwrap (.free id)).1, lifoStep_free]
    by_cases hid : id ∈ cfg.ids
    · by_cases hs : id ∈ stack
      · rw [Lifo.give_alreadyIn hid hs, if_neg (fun hout => (Lifo.mem_out.mp hout).2 hs),
          if_pos (hrange.mp hid)]
        rfl
      · rw [Lifo.give_given hid hs, if_pos (Lifo.mem_out.mpr ⟨hid, hs⟩)]
        rfl
    · rw [Lifo.give_foreign hid, if_neg (fun hout => hid (Lifo.mem_out.mp hout).1),
        if_neg (hrange.not.mp hid)]
      rfl
  · intro op e he
    obtain ⟨hsame, -, hfail⟩ := h.step hwrap op
    refine ⟨?_, hfail e he⟩
    rintro rfl
    rw [hsame] at he
    exact hcode _ he

/-- Along every run the id pool answers as a stack of distinct ids does, and it never leaves
its arrays. -/
theorem id_pool_refines_lifo {heap heap' : Heap}
    (hc : (idPoolCreate cfg).run heap = .ok pool heap') (hcap : cfg.capacity.toNat < 2 ^ 31)
    (hrange : cfg.idStartOffset.toNat + cfg.capacity.toNat < 2 ^ 32) (ops : List IdPoolOp) :
    outputs IdPool.step pool ops = outputs (lifoStep cfg.ids) cfg.ids ops ∧
      IdPool.Answers cfg (final IdPool.step pool ops) (final (lifoStep cfg.ids) cfg.ids ops) := by
  have hsim : ∀ q stack op, IdPool.Rep cfg q stack →
      (q.step op).1 = (lifoStep cfg.ids stack op).1 ∧
        IdPool.Rep cfg (q.step op).2 (lifoStep cfg.ids stack op).2 := by
    intro q stack op h
    obtain ⟨hsame, hrep, -⟩ := h.step hrange op
    exact ⟨hsame, hrep⟩
  obtain ⟨hout, hrep⟩ := outputs_eq_of_simulation hsim (idPoolCreate_ok hc) ops
  exact ⟨hout, hrep.answers hrange hcap⟩

theorem id_pool_refines_lifo_three : ∃ pool heap,
    (idPoolCreate ⟨3, 10⟩).run ⟨fun _ => true, 0, []⟩ = .ok pool heap ∧
      outputs IdPool.step pool [.allocate, .free 10, .free 10] =
        outputs (lifoStep [10, 11, 12]) [10, 11, 12] [.allocate, .free 10, .free 10] := by
  obtain ⟨pool, heap, hc⟩ : ∃ pool heap,
      (idPoolCreate ⟨3, 10⟩).run ⟨fun _ => true, 0, []⟩ = .ok pool heap := ⟨_, _, rfl⟩
  exact ⟨pool, heap, hc, (id_pool_refines_lifo hc (by decide) (by decide) _).1⟩

end Runs
end FileTransfer
