import FileTransfer.Infra.IdPoolLifo

/-! Which pools take every id back that they handed out. -/
namespace FileTransfer
open Run

/-- `outstanding` are the ids that were handed out and not taken back since, as the return
codes tell. -/
structure IdSession where
  pool : IdPool
  outstanding : Set UInt32

namespace IdSession

def start (pool : IdPool) : IdSession := ⟨pool, ∅⟩

def exec (s : IdSession) : IdPoolOp → IdSession
  | .allocate =>
    match idPoolAllocate.run s.pool with
    | .ok id pool => ⟨pool, insert id s.outstanding⟩
    | .error _ pool => { s with pool }
  | .free id =>
    match (idPoolFree id).run s.pool with
    | .ok _ pool => ⟨pool, s.outstanding \ {id}⟩
    | .error _ pool => { s with pool }

/-- Any id may be freed, whether it is outstanding or not. -/
def anyCall (_ : IdSession) (_ : IdPoolOp) : Prop := True

/-- The id is taken back, and a second attempt finds it in. -/
def TakesBack (s : IdSession) (id : UInt32) : Prop :=
  ∃ pool, (idPoolFree id).run s.pool = .ok () pool ∧
    s.exec (.free id) = ⟨pool, s.outstanding \ {id}⟩ ∧
    (idPoolFree id).run pool = .error .EALREADY pool

section Range
variable {cfg : IdPoolCfg} {pool : IdPool} {stack : List UInt32} {id : UInt32}

/-- When the sum wraps, the range that `id_pool_free` accepts is empty. -/
theorem foreign_of_wrap (hwrap : 2 ^ 32 ≤ cfg.idStartOffset.toNat + cfg.capacity.toNat) :
    cfg.capacity + cfg.idStartOffset ≤ id ∨ id < cfg.idStartOffset := by
  have hcap := cfg.capacity.toNat_lt
  have hstart := cfg.idStartOffset.toNat_lt
  rw [UInt32.le_iff_toNat_le, UInt32.lt_iff_toNat_lt, UInt32.toNat_add]
  omega

theorem free_of_wrap (hwrap : 2 ^ 32 ≤ cfg.idStartOffset.toNat + cfg.capacity.toNat)
    (h : IdPool.Rep cfg pool stack) : (idPoolFree id).run pool = .error .ESPIPE pool := by
  apply IdPool.Rep.free_foreign
  rw [h.capacity, h.start]
  exact foreign_of_wrap hwrap

end Range

section Steps
variable {cfg : IdPoolCfg} {s : IdSession} {id : UInt32}

/-- The ids that are out are the outstanding ones, after every call. -/
theorem exec_out (h : IdPool.Out cfg s.pool s.outstanding) (op : IdPoolOp) :
    IdPool.Out cfg (s.exec op).pool (s.exec op).outstanding := by
  cases op with
  | allocate =>
    rcases h.allocate with ⟨hrun, -⟩ | ⟨id, pool, hrun, -, -, hout⟩
    · simp only [exec, hrun]
      exact h
    · simp only [exec, hrun]
      exact hout
  | free id =>
    by_cases hwrap : cfg.idStartOffset.toNat + cfg.capacity.toNat < 2 ^ 32
    · by_cases hid : id ∈ s.outstanding
      · obtain ⟨pool, hrun, hout⟩ := h.free hid hwrap
        simp only [exec, hrun]
        exact hout
      · obtain ⟨e, hrun⟩ := h.free_of_notMem hid hwrap
        simp only [exec, hrun]
        exact h
    · obtain ⟨stack, hrep, hS⟩ := h
      have hrun : (idPoolFree id).run s.pool = .error .ESPIPE s.pool :=
        free_of_wrap (not_lt.mp hwrap) hrep
      simp only [exec, hrun]
      exact ⟨stack, hrep, hS⟩

theorem out_of_reach {heap heap' : Heap} {pool : IdPool}
    (hc : (idPoolCreate cfg).run heap = .ok pool heap') (hr : Reach anyCall exec (start pool) s) :
    IdPool.Out cfg s.pool s.outstanding := by
  apply hr.invariant fun s => IdPool.Out cfg s.pool s.outstanding
  · exact .of_new (idPoolCreate_ok hc)
  · intro s op h _
    exact exec_out h op

theorem takesBack (h : IdPool.Out cfg s.pool s.outstanding) (hid : id ∈ s.outstanding)
    (hwrap : cfg.idStartOffset.toNat + cfg.capacity.toNat < 2 ^ 32) : s.TakesBack id := by
  obtain ⟨stack, hrep, hS⟩ := h
  obtain ⟨hids, hs⟩ := Lifo.mem_out.mp ((hS id).mp hid)
  have hin := (IdPoolCfg.mem_ids_iff hwrap).mp hids
  have hin' := hin
  rw [← hrep.capacity, ← hrep.start] at hin
  obtain ⟨pool, hrun, hrep'⟩ := hrep.free_given hin hids hs
  rw [← hrep'.capacity, ← hrep'.start] at hin'
  refine ⟨pool, hrun, ?_, hrep'.free_alreadyIn hin' hids List.mem_cons_self⟩
  simp only [exec, hrun]

theorem not_takesBack (h : IdPool.Out cfg s.pool s.outstanding)
    (hwrap : 2 ^ 32 ≤ cfg.idStartOffset.toNat + cfg.capacity.toNat) : ¬ s.TakesBack id := by
  intro htakes
  obtain ⟨stack, hrep, -⟩ := h
  obtain ⟨pool, hrun, -⟩ := htakes
  rw [free_of_wrap hwrap hrep] at hrun
  cases hrun

theorem capacity_ne_zero {heap heap' : Heap} {pool : IdPool}
    (hc : (idPoolCreate cfg).run heap = .ok pool heap') : cfg.capacity ≠ 0 := by
  intro hz
  unfold idPoolCreate at hc
  rw [if_pos hz] at hc
  cases hc

/-- A new pool has an id to hand out. -/
theorem exists_outstanding {heap heap' : Heap} {pool : IdPool}
    (hc : (idPoolCreate cfg).run heap = .ok pool heap') :
    ∃ s id, Reach anyCall exec (start pool) s ∧ id ∈ s.outstanding := by
  have hout : IdPool.Out cfg pool ∅ := .of_new (idPoolCreate_ok hc)
  rcases hout.allocate with ⟨-, hall⟩ | ⟨id, pool', hrun, -⟩
  · have hpos : 0 < cfg.capacity.toNat := by
      rw [Nat.pos_iff_ne_zero]
      exact fun hz => capacity_ne_zero hc (UInt32.toNat_inj.mp hz)
    exact (hall _ (IdPoolCfg.mem_ids.mpr ⟨0, hpos, rfl⟩)).elim
  · refine ⟨(start pool).exec .allocate, id, .step .start IdPoolOp.allocate trivial, ?_⟩
    simp only [exec, start, hrun]
    exact Set.mem_insert id ∅

end Steps

/-- Every id that is handed out can be given back, in every state, exactly if the ids of the
pool and the one after the last fit in 32 bits. -/
theorem every_id_returnable_iff {cfg : IdPoolCfg} {heap heap' : Heap} {pool : IdPool}
    (hc : (idPoolCreate cfg).run heap = .ok pool heap') :
    (∀ s, Reach anyCall exec (start pool) s → ∀ id ∈ s.outstanding, s.TakesBack id) ↔
      cfg.idStartOffset.toNat + cfg.capacity.toNat < 2 ^ 32 := by
  constructor
  · intro h
    by_contra hwrap
    obtain ⟨s, id, hr, hid⟩ := exists_outstanding hc
    exact not_takesBack (out_of_reach hc hr) (not_lt.mp hwrap) (h s hr id hid)
  · intro hwrap s hr id hid
    exact takesBack (out_of_reach hc hr) hid hwrap

theorem every_id_returnable_iff_three : ∃ pool heap,
    (idPoolCreate ⟨3, 10⟩).run ⟨fun _ => true, 0, []⟩ = .ok pool heap ∧
      ∀ s, Reach anyCall exec (start pool) s → ∀ id ∈ s.outstanding, s.TakesBack id := by
  obtain ⟨pool, heap, hc⟩ : ∃ pool heap,
      (idPoolCreate ⟨3, 10⟩).run ⟨fun _ => true, 0, []⟩ = .ok pool heap := ⟨_, _, rfl⟩
  exact ⟨pool, heap, hc, (every_id_returnable_iff hc).mpr (by decide)⟩

/-- The only id of this pool is the largest one, and the pool does not take it back. -/
theorem last_id_refused : ∃ pool heap,
    (idPoolCreate ⟨1, 4294967295⟩).run ⟨fun _ => true, 0, []⟩ = .ok pool heap ∧
      Reach anyCall exec (start pool) ((start pool).exec .allocate) ∧
      4294967295 ∈ ((start pool).exec .allocate).outstanding ∧
      (idPoolFree 4294967295).run ((start pool).exec .allocate).pool =
        .error .ESPIPE ((start pool).exec .allocate).pool :=
  ⟨_, _, rfl, .step .start IdPoolOp.allocate trivial, Set.mem_insert _ ∅, rfl⟩

end IdSession
end FileTransfer
